/-
File names of screenshots, and which of them coincide.

A screenshot is written under the name of its test, its number in the test and its label, with underscores between them.
Name and label are made safe, which maps many texts to one, and underscores may stand in them, too. Two screenshots have
the same file name (`fileName_eq_iff`) when their parts are the same once they are safe, and when one file name `Continues`
the other: the test of one is named like the other's test, number and some of its label, and the rest fits.

So whether screenshots of two tests can have the same file name is for the names of the tests to decide: exactly if they
are `Confusable` (`confusable_iff`).
-/
import Mathlib.Data.List.Infix
import TestTrail.Text.Digits
import TestTrail.Text.Path

namespace TestTrail

open TestTrail.Text

/-! ## Parts of a name -/

namespace Text

variable {as S K L S' K' L' : List Char}

/-- a number in front of an underscore ends there -/
theorem number_mark_inj (hK : ∀ c ∈ K, isDigit c = true) (hK' : ∀ c ∈ K', isDigit c = true) :
    K ++ '_' :: L = K' ++ '_' :: L' ↔ K = K' ∧ L = L' := by
  constructor
  · intro h
    have htake : ∀ {D R : List Char}, (∀ c ∈ D, isDigit c = true) → (D ++ '_' :: R).takeWhile isDigit = D :=
      fun hD => by rw [List.takeWhile_append_of_pos hD, List.takeWhile_cons_of_neg (by decide), List.append_nil]
    have hnumber : K = K' := by rw [← htake (R := L) hK, h, htake hK']
    subst hnumber
    exact ⟨rfl, (List.cons.inj (List.append_cancel_left h)).2⟩
  · rintro ⟨rfl, rfl⟩
    rfl

/-- the first name is followed, inside the second one, by its number and by the beginning `rest` of what is behind it -/
def GoesOn (S K L S' K' L' : List Char) : Prop :=
  ∃ rest, S' ++ ['_'] = S ++ '_' :: (K ++ '_' :: rest) ∧ L = rest ++ (K' ++ '_' :: L')

/-- where something comes between a name and an underscore, the number behind the name is in it -/
theorem number_within (hK : ∀ c ∈ K, isDigit c = true) (h : K ++ '_' :: L = as ++ '_' :: (K' ++ '_' :: L')) :
    ∃ rest, as ++ ['_'] = K ++ '_' :: rest ∧ L = rest ++ (K' ++ '_' :: L') := by
  rcases List.append_eq_append_iff.1 h with ⟨bs, rfl, hbs⟩ | ⟨bs, rfl, hbs⟩
  · rcases bs with _ | ⟨c, rest⟩
    · exact ⟨[], by rw [List.append_nil], (List.cons.inj hbs).2⟩
    · obtain ⟨rfl, rfl⟩ := List.cons.inj hbs
      exact ⟨rest ++ ['_'], by simp, by simp⟩
  · rcases bs with _ | ⟨c, bs⟩
    · exact ⟨[], by rw [List.append_nil], (List.cons.inj hbs).2.symm⟩
    · obtain ⟨rfl, -⟩ := List.cons.inj hbs
      have hmark : isDigit '_' = true := hK '_' (List.mem_append_right as List.mem_cons_self)
      cases hmark

theorem GoesOn.marked_eq (h : GoesOn S K L S' K' L') :
    S ++ '_' :: (K ++ '_' :: L) = S' ++ '_' :: (K' ++ '_' :: L') := by
  obtain ⟨rest, hname, rfl⟩ := h
  calc S ++ '_' :: (K ++ '_' :: (rest ++ (K' ++ '_' :: L')))
      = (S ++ '_' :: (K ++ '_' :: rest)) ++ (K' ++ '_' :: L') := by simp
    _ = (S' ++ ['_']) ++ (K' ++ '_' :: L') := by rw [hname]
    _ = S' ++ '_' :: (K' ++ '_' :: L') := by simp

/-- a name that is longer than the other one has the other's number in it -/
theorem goesOn_of_longer (S : List Char) (hK : ∀ c ∈ K, isDigit c = true)
    (h : '_' :: (K ++ '_' :: L) = as ++ '_' :: (K' ++ '_' :: L')) : as = [] ∨ GoesOn S K L (S ++ as) K' L' := by
  rcases as with _ | ⟨c, as⟩
  · exact .inl rfl
  · obtain ⟨rfl, htail⟩ := List.cons.inj h
    obtain ⟨rest, hname, hlabel⟩ := number_within hK htail
    refine .inr ⟨rest, ?_, hlabel⟩
    rw [List.append_assoc, List.cons_append, hname]

/-- three parts with underscores between them, two of them numbers -/
theorem marked_eq_iff (hK : ∀ c ∈ K, isDigit c = true) (hK' : ∀ c ∈ K', isDigit c = true) :
    S ++ '_' :: (K ++ '_' :: L) = S' ++ '_' :: (K' ++ '_' :: L') ↔
      (S = S' ∧ K = K' ∧ L = L') ∨ GoesOn S K L S' K' L' ∨ GoesOn S' K' L' S K L := by
  constructor
  · intro h
    have hsame : S = S' → (S = S' ∧ K = K' ∧ L = L') := fun hname => by
      subst hname
      exact ⟨rfl, (number_mark_inj hK hK').1 (List.cons.inj (List.append_cancel_left h)).2⟩
    rcases List.append_eq_append_iff.1 h with ⟨as, hname, htail⟩ | ⟨as, hname, htail⟩
    · rcases goesOn_of_longer S hK htail with rfl | hon
      · exact .inl (hsame (by rw [hname, List.append_nil]))
      · exact .inr (.inl (hname ▸ hon))
    · rcases goesOn_of_longer S' hK' htail with rfl | hon
      · exact .inl (hsame (by rw [hname, List.append_nil]))
      · exact .inr (.inr (hname ▸ hon))
  · rintro (⟨rfl, rfl, rfl⟩ | hon | hon)
    · rfl
    · exact hon.marked_eq
    · exact hon.marked_eq.symm

namespace Path

/-- below a directory, names that are no paths from the root stay apart -/
theorem join_inj {a b : String} (ha : isAbsolute a = false) (hb : isAbsolute b = false) (dir : String) :
    join dir a = join dir b ↔ a = b := by
  unfold join
  rw [ha, hb]
  simp only [Bool.false_eq_true, if_false]
  split
  · exact Iff.rfl
  · exact String.append_right_inj dir
  · exact String.append_right_inj (dir ++ "/")

theorem safeName_eq_self {name : String} (h : ∀ c ∈ name.toList, isSafe c = true) : safeName name = name := by
  have hmap : (name.toList.map fun c => if isSafe c then c else '_') = name.toList :=
    (List.map_congr_left fun c hc => if_pos (h c hc)).trans (List.map_id' _)
  rw [safeName, hmap, String.ofList_toList]

end Path

end Text

/-! ## Screenshots -/

/-- a screenshot before it has a file: its test, its number in the test, and its label -/
structure Shot where
  test : String
  number : Nat
  label : String

namespace Shot

def fileName (x : Shot) : String :=
  Path.safeName x.test ++ "_" ++ toString x.number ++ "_" ++ Path.safeName x.label ++ ".png"

/-- nothing that is left in a file name tells the two apart -/
structure Same (x y : Shot) : Prop where
  test : Path.safeName x.test = Path.safeName y.test
  number : x.number = y.number
  label : Path.safeName x.label = Path.safeName y.label

/-- The test of `y` is named like the test of `x` with its number and the beginning `rest` of its label. The label of `x`
goes on behind it with the number and the label of `y`. -/
def Continues (x y : Shot) : Prop :=
  ∃ rest, Path.safeName y.test ++ "_" = Path.safeName x.test ++ "_" ++ toString x.number ++ "_" ++ rest ∧
    Path.safeName x.label = rest ++ toString y.number ++ "_" ++ Path.safeName y.label

variable {x y : Shot}

theorem isDigit_of_mem_number {n : Nat} {c : Char} (h : c ∈ (toString n).toList) : isDigit c = true := by
  rw [Nat.toString_eq_repr, Nat.toList_repr] at h
  exact Nat.isDigit_of_mem_toDigits (by decide) (by decide) h

theorem number_inj {m n : Nat} : (toString m).toList = (toString n).toList ↔ m = n := by
  have hvalue : ∀ n : Nat, Nat.ofDigitChars 10 (toString n).toList 0 = n := fun n => by
    rw [Nat.toString_eq_repr, Nat.toList_repr, Nat.ofDigitChars_ten_toDigits]
  constructor
  · intro h
    rw [← hvalue m, h, hvalue n]
  · rintro rfl
    rfl

theorem goesOn_iff :
    GoesOn (Path.safeName x.test).toList (toString x.number).toList (Path.safeName x.label).toList
        (Path.safeName y.test).toList (toString y.number).toList (Path.safeName y.label).toList ↔ x.Continues y := by
  unfold GoesOn Continues
  constructor
  · rintro ⟨rest, hname, hlabel⟩
    refine ⟨String.ofList rest, String.toList_inj.1 ?_, String.toList_inj.1 ?_⟩
    · simpa using hname
    · simpa using hlabel
  · rintro ⟨rest, hname, hlabel⟩
    refine ⟨rest.toList, ?_, ?_⟩
    · simpa using congrArg String.toList hname
    · simpa using congrArg String.toList hlabel

/-- **Screenshots have the same file name** when their safe parts are the same, or when one name continues the other. -/
theorem fileName_eq_iff (x y : Shot) : x.fileName = y.fileName ↔ x.Same y ∨ x.Continues y ∨ y.Continues x := by
  have hchars : ∀ z : Shot, z.fileName.toList = ((Path.safeName z.test).toList ++
      '_' :: ((toString z.number).toList ++ '_' :: (Path.safeName z.label).toList)) ++ ".png".toList := fun z => by
    simp [fileName]
  have hsame : x.Same y ↔ (Path.safeName x.test).toList = (Path.safeName y.test).toList ∧
      (toString x.number).toList = (toString y.number).toList ∧
        (Path.safeName x.label).toList = (Path.safeName y.label).toList := by
    rw [String.toList_inj, number_inj, String.toList_inj]
    exact ⟨fun h => ⟨h.test, h.number, h.label⟩, fun h => ⟨h.1, h.2.1, h.2.2⟩⟩
  rw [← String.toList_inj, hchars, hchars, List.append_left_inj,
    marked_eq_iff (fun _ => isDigit_of_mem_number) (fun _ => isDigit_of_mem_number), hsame, goesOn_iff, goesOn_iff]

example :
    (⟨"pay", 1, "card 1 Test end"⟩ : Shot).fileName = (⟨"pay 1 card", 1, "Test end"⟩ : Shot).fileName := by decide

/-- a file name is a single name, not a path from the root -/
theorem isAbsolute_fileName (x : Shot) : Path.isAbsolute x.fileName = false := by
  have hsafe : ∀ {name : String}, '/' ∉ (Path.safeName name).toList := fun h => by
    cases Path.isSafe_of_mem_safeName h
  have hnumber : '/' ∉ (toString x.number).toList := fun h => by
    cases isDigit_of_mem_number h
  have hslash : '/' ∉ x.fileName.toList := by
    simp only [fileName, String.toList_append, List.mem_append, not_or]
    exact ⟨⟨⟨⟨⟨hsafe, by decide⟩, hnumber⟩, by decide⟩, hsafe⟩, by decide⟩
  rw [Path.isAbsolute, beq_eq_false_iff_ne]
  exact fun h => hslash (List.mem_of_mem_head? h)

/-- the file of a screenshot below a directory -/
def path (dir : String) (x : Shot) : String := Path.join dir x.fileName

theorem path_inj (dir : String) (x y : Shot) : x.path dir = y.path dir ↔ x.fileName = y.fileName :=
  Path.join_inj x.isAbsolute_fileName y.isAbsolute_fileName dir

theorem path_eq_iff (dir : String) (x y : Shot) :
    x.path dir = y.path dir ↔ x.Same y ∨ x.Continues y ∨ y.Continues x :=
  (path_inj dir x y).trans (fileName_eq_iff x y)

/-- a name that another one continues has more in its label -/
theorem Continues.label_ne (h : x.Continues y) : x.label ≠ y.label := by
  obtain ⟨rest, -, hlabel⟩ := h
  intro heq
  have hlength := congrArg String.length hlabel
  rw [heq] at hlength
  simp only [String.length_append] at hlength
  have hmark : "_".length = 1 := rfl
  omega

end Shot

/-! ## Names of tests -/

/-- the second name goes on behind the first one like the file name of a screenshot -/
def NamedLikeShot (s t : String) : Prop :=
  ∃ n rest, 0 < n ∧ Path.safeName t ++ "_" = Path.safeName s ++ "_" ++ toString n ++ "_" ++ rest

/-- the names of two tests do not tell their screenshots apart -/
def Confusable (s t : String) : Prop := Path.safeName s = Path.safeName t ∨ NamedLikeShot s t ∨ NamedLikeShot t s

theorem NamedLikeShot.isPrefix {s t : String} (h : NamedLikeShot s t) :
    (Path.safeName s ++ "_").toList <+: (Path.safeName t ++ "_").toList := by
  obtain ⟨n, rest, -, hname⟩ := h
  refine ⟨(toString n ++ "_" ++ rest).toList, ?_⟩
  rw [hname]
  simp

theorem Shot.Continues.namedLikeShot {x y : Shot} (h : x.Continues y) (hx : 0 < x.number) :
    NamedLikeShot x.test y.test := by
  obtain ⟨rest, hname, -⟩ := h
  exact ⟨x.number, rest, hx, hname⟩

theorem Shot.confusable_of_fileName_eq {x y : Shot} (h : x.fileName = y.fileName) (hx : 0 < x.number)
    (hy : 0 < y.number) : Confusable x.test y.test := by
  rcases (fileName_eq_iff x y).1 h with hsame | hon | hon
  · exact .inl hsame.test
  · exact .inr (.inl (hon.namedLikeShot hx))
  · exact .inr (.inr (hon.namedLikeShot hy))

/-- a label can go on with anything that stands in a name of a test -/
theorem NamedLikeShot.exists_shots {s t : String} (h : NamedLikeShot s t) :
    ∃ x y : Shot, x.test = s ∧ y.test = t ∧ 0 < x.number ∧ 0 < y.number ∧ x.Continues y := by
  obtain ⟨n, rest, hn, hname⟩ := h
  have hsafe : ∀ c ∈ (rest ++ "1" ++ "_").toList, Path.isSafe c = true := by
    have hrest : ∀ c ∈ rest.toList, c ∈ (Path.safeName t ++ "_").toList := fun c hc => by
      rw [hname, String.toList_append]
      exact List.mem_append_right _ hc
    intro c hc
    simp only [String.toList_append, List.mem_append] at hc hrest
    rcases hc with (hc | hc) | hc
    · rcases hrest c hc with hc | hc
      · exact Path.isSafe_of_mem_safeName hc
      · rw [List.mem_singleton.1 hc]
        decide
    · rw [List.mem_singleton.1 hc]
      decide
    · rw [List.mem_singleton.1 hc]
      decide
  refine ⟨⟨s, n, rest ++ "1" ++ "_"⟩, ⟨t, 1, ""⟩, rfl, rfl, hn, Nat.one_pos, rest, hname, ?_⟩
  have hempty : Path.safeName "" = "" := rfl
  have hone : toString (1 : Nat) = "1" := by decide
  rw [Path.safeName_eq_self hsafe, hempty, hone, String.append_empty]

/-- **Names are confusable exactly if some screenshots of tests with these names have the same file name.** -/
theorem confusable_iff (s t : String) :
    Confusable s t ↔
      ∃ x y : Shot, x.test = s ∧ y.test = t ∧ 0 < x.number ∧ 0 < y.number ∧ x.fileName = y.fileName := by
  constructor
  · rintro (hsame | hnamed | hnamed)
    · exact ⟨⟨s, 1, ""⟩, ⟨t, 1, ""⟩, rfl, rfl, Nat.one_pos, Nat.one_pos,
        (Shot.fileName_eq_iff _ _).2 (.inl ⟨hsame, rfl, rfl⟩)⟩
    · obtain ⟨x, y, hx, hy, hm, hn, hon⟩ := hnamed.exists_shots
      exact ⟨x, y, hx, hy, hm, hn, (Shot.fileName_eq_iff x y).2 (.inr (.inl hon))⟩
    · obtain ⟨y, x, hy, hx, hn, hm, hon⟩ := hnamed.exists_shots
      exact ⟨x, y, hx, hy, hm, hn, (Shot.fileName_eq_iff x y).2 (.inr (.inr hon))⟩
  · rintro ⟨x, y, rfl, rfl, hm, hn, h⟩
    exact Shot.confusable_of_fileName_eq h hm hn

end TestTrail
