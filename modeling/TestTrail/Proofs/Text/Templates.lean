/-
Names made from templates.

A placeholder is a dollar sign and an identifier in braces, and an identifier holds neither a dollar sign nor a brace.
So no placeholder reaches over a dollar sign behind its own (`placeholder?_before_dollar`), and a template may be cut in
front of any dollar sign: its parts are filled in one by one (`substituteFrom_before_dollar`). `fill_single_pass` has
what follows for a template cut around a placeholder. Its two equations settle what is filled in for every template.

`templated_name_of_perm` is about the arguments. When their names are distinct, the one that a placeholder finds is the
same in any order, and the order of the secrets does not matter to masking.
-/
import Mathlib.Data.List.TakeWhile
import TestTrail.Naming
import TestTrail.Proofs.Text.Factors

namespace TestTrail.Text.Template

/-! ## Placeholders -/

/-- an ASCII letter or an underscore -/
def Letter (c : Char) : Prop := ('A' ≤ c ∧ c ≤ 'Z') ∨ ('a' ≤ c ∧ c ≤ 'z') ∨ c = '_'

/-- a letter or underscore, and behind it letters, underscores and digits -/
def Identifier (name : List Char) : Prop :=
  ∃ c cs, name = c :: cs ∧ Letter c ∧ ∀ d ∈ cs, Letter d ∨ ('0' ≤ d ∧ d ≤ '9')

/-- the placeholder of a name as it is written -/
def written (name : List Char) : List Char := '$' :: '{' :: (name ++ ['}'])

variable {cs rest name : List Char}

theorem isAlpha_iff (c : Char) : c.isAlpha = true ↔ ('A' ≤ c ∧ c ≤ 'Z') ∨ ('a' ≤ c ∧ c ≤ 'z') := by
  change (decide (c.val ≥ 'A'.val ∧ c.val ≤ 'Z'.val) ||
    (decide (c.val ≥ 'a'.val) && decide (c.val ≤ 'z'.val))) = true ↔ _
  simp only [Bool.or_eq_true, Bool.and_eq_true, decide_eq_true_eq, Char.le_def, ge_iff_le]

theorem isLetter_iff (c : Char) : isLetter c = true ↔ Letter c := by
  simp only [isLetter, Letter, isAlpha_iff, Bool.or_eq_true, beq_iff_eq, or_assoc]

theorem isNameChar_iff (c : Char) : isNameChar c = true ↔ Letter c ∨ ('0' ≤ c ∧ c ≤ '9') := by
  simp only [isNameChar, Letter, Char.isAlphanum, isAlpha_iff, Char.isDigit, Bool.or_eq_true, Bool.and_eq_true,
    decide_eq_true_eq, beq_iff_eq, Char.le_def, ge_iff_le]
  tauto

theorem identifier_iff : Identifier name ↔
    (∃ c cs, name = c :: cs ∧ isLetter c = true) ∧ ∀ d ∈ name, isNameChar d = true := by
  constructor
  · rintro ⟨c, cs, rfl, hc, hcs⟩
    refine ⟨⟨c, cs, rfl, (isLetter_iff c).2 hc⟩, List.forall_mem_cons.2 ⟨?_, ?_⟩⟩
    · exact (isNameChar_iff c).2 (Or.inl hc)
    · exact fun d hd => (isNameChar_iff d).2 (hcs d hd)
  · rintro ⟨⟨c, cs, rfl, hc⟩, hname⟩
    refine ⟨c, cs, rfl, (isLetter_iff c).1 hc, fun d hd => ?_⟩
    exact (isNameChar_iff d).1 (hname d (List.mem_cons_of_mem c hd))

theorem takeWhile_identifier (h : Identifier name) (rest : List Char) :
    (name ++ '}' :: rest).takeWhile isNameChar = name := by
  have hbrace : isNameChar '}' = false := by decide
  rw [List.takeWhile_append_of_pos (identifier_iff.1 h).2, List.takeWhile_cons_of_neg (by simp [hbrace]),
    List.append_nil]

/-- the matcher finds an identifier in braces, and nothing else -/
theorem placeholder?_eq_some :
    placeholder? cs = some name ↔ Identifier name ∧ ∃ rest, cs = '{' :: (name ++ '}' :: rest) := by
  constructor
  · intro h
    unfold placeholder? at h
    split at h
    · rename_i rest
      simp only at h
      split at h
      · rename_i c tail behind hname hbehind
        split_ifs at h with hc
        cases h
        refine ⟨identifier_iff.2 ⟨⟨c, tail, hname, hc⟩, fun d => List.mem_takeWhile_imp⟩, behind, ?_⟩
        rw [← hbehind, List.prefix_iff_eq_append.1 (List.takeWhile_prefix isNameChar)]
      · cases h
    · cases h
  · rintro ⟨hname, rest, rfl⟩
    obtain ⟨⟨c, tail, hcons, hc⟩, -⟩ := identifier_iff.1 hname
    unfold placeholder?
    simp only [takeWhile_identifier hname, List.drop_left]
    rw [hcons]
    exact if_pos hc

theorem dollar_not_mem (h : Identifier name) : '$' ∉ '{' :: (name ++ ['}']) := by
  intro hmem
  have hdollar : isNameChar '$' = false := by decide
  simp only [List.mem_cons, List.mem_append, List.not_mem_nil, or_false] at hmem
  rcases hmem with hmem | hmem | hmem
  · exact absurd hmem (by decide)
  · exact absurd ((identifier_iff.1 h).2 '$' hmem) (by simp [hdollar])
  · exact absurd hmem (by decide)

/-- no placeholder reaches over a dollar sign behind its own -/
theorem placeholder?_before_dollar (cs rest : List Char) : placeholder? (cs ++ '$' :: rest) = placeholder? cs := by
  refine Option.ext fun name => ?_
  rw [placeholder?_eq_some, placeholder?_eq_some]
  refine and_congr_right fun hname => ⟨?_, ?_⟩
  · rintro ⟨behind, h⟩
    have h' : cs ++ '$' :: rest = ('{' :: (name ++ ['}'])) ++ behind := by simpa using h
    rcases List.append_eq_append_iff.1 h' with ⟨more, hwritten, hmore⟩ | ⟨more, hcs, -⟩
    · cases more with
      | nil => exact ⟨[], by simpa using hwritten.symm⟩
      | cons d more =>
        -- the dollar sign would be one of the name's characters
        obtain ⟨rfl, -⟩ := List.cons_eq_cons.1 hmore
        exact absurd (by rw [hwritten]; simp) (dollar_not_mem hname)
    · exact ⟨more, by simpa using hcs⟩
  · rintro ⟨behind, rfl⟩
    exact ⟨behind ++ '$' :: rest, by simp⟩

/-! ## One pass -/

section Pass

variable (value : List Char → Option (List Char))

theorem substituteFrom_skip (skip : Nat) (cs : List Char) :
    substituteFrom value skip cs = substituteFrom value 0 (cs.drop skip) := by
  induction cs generalizing skip with
  | nil => rw [List.drop_nil, substituteFrom, substituteFrom]
  | cons c cs ih =>
    cases skip with
    | zero => rfl
    | succ skip => exact ih skip

theorem substituteFrom_other {c : Char} (hc : c ≠ '$') (cs : List Char) :
    substituteFrom value 0 (c :: cs) = c :: substituteFrom value 0 cs := by
  rw [substituteFrom, if_neg hc]

theorem substituteFrom_alone (h : placeholder? cs = none) :
    substituteFrom value 0 ('$' :: cs) = '$' :: substituteFrom value 0 cs := by
  rw [substituteFrom, if_pos rfl, h]

theorem substituteFrom_unknown (h : placeholder? cs = some name) (hvalue : value name = none) :
    substituteFrom value 0 ('$' :: cs) = '$' :: substituteFrom value 0 cs := by
  rw [substituteFrom, if_pos rfl, h]
  simp only [hvalue]

theorem substituteFrom_known {text : List Char} (h : placeholder? cs = some name) (hvalue : value name = some text) :
    substituteFrom value 0 ('$' :: cs) = text ++ substituteFrom value (name.length + 2) cs := by
  rw [substituteFrom, if_pos rfl, h]
  simp only [hvalue]

/-- a template can be cut in front of a dollar sign -/
theorem substituteFrom_before_dollar (cs rest : List Char) (skip : Nat) (h : skip ≤ cs.length) :
    substituteFrom value skip (cs ++ '$' :: rest) =
      substituteFrom value skip cs ++ substituteFrom value 0 ('$' :: rest) := by
  induction cs generalizing skip with
  | nil =>
    obtain rfl : skip = 0 := Nat.le_zero.1 h
    rfl
  | cons c cs ih =>
    rw [List.cons_append]
    cases skip with
    | succ skip => exact ih skip (Nat.le_of_succ_le_succ h)
    | zero =>
      have hrest := ih 0 (Nat.zero_le _)
      by_cases hc : c = '$'
      · subst hc
        have hcut := placeholder?_before_dollar cs rest
        cases hname : placeholder? cs with
        | none =>
          rw [hname] at hcut
          rw [substituteFrom_alone value hname, substituteFrom_alone value hcut, hrest, List.cons_append]
        | some name =>
          rw [hname] at hcut
          cases hvalue : value name with
          | none =>
            rw [substituteFrom_unknown value hname hvalue, substituteFrom_unknown value hcut hvalue, hrest,
              List.cons_append]
          | some text =>
            obtain ⟨-, behind, hcs⟩ := placeholder?_eq_some.1 hname
            have hlength : name.length + 2 ≤ cs.length := by
              rw [hcs]
              simp only [List.length_cons, List.length_append]
              omega
            rw [substituteFrom_known value hname hvalue, substituteFrom_known value hcut hvalue, ih _ hlength,
              List.append_assoc]
      · rw [substituteFrom_other value hc, substituteFrom_other value hc, hrest, List.cons_append]

theorem substituteFrom_plain (h : '$' ∉ cs) (rest : List Char) :
    substituteFrom value 0 (cs ++ rest) = cs ++ substituteFrom value 0 rest := by
  induction cs with
  | nil => rfl
  | cons c cs ih =>
    rw [List.mem_cons, not_or] at h
    rw [List.cons_append, substituteFrom_other value (Ne.symm h.1), ih h.2, List.cons_append]

/-- a placeholder gives way to its value, if it has one -/
theorem substituteFrom_written (h : Identifier name) (rest : List Char) :
    substituteFrom value 0 (written name ++ rest) =
      (value name).getD (written name) ++ substituteFrom value 0 rest := by
  have hcut : written name ++ rest = '$' :: (('{' :: (name ++ ['}'])) ++ rest) := by simp [written]
  have hname : placeholder? (('{' :: (name ++ ['}'])) ++ rest) = some name :=
    placeholder?_eq_some.2 ⟨h, rest, by simp⟩
  rw [hcut]
  cases hvalue : value name with
  | none =>
    rw [substituteFrom_unknown value hname hvalue, substituteFrom_plain value (dollar_not_mem h)]
    rfl
  | some text =>
    have hlength : name.length + 2 = ('{' :: (name ++ ['}'])).length := by simp
    rw [substituteFrom_known value hname hvalue, substituteFrom_skip, hlength, List.drop_left]
    rfl

/-- a text without placeholders stays as it is -/
theorem substituteFrom_of_none (h : ∀ before name behind, Identifier name → cs ≠ before ++ (written name ++ behind)) :
    substituteFrom value 0 cs = cs := by
  induction cs with
  | nil => rfl
  | cons c cs ih =>
    have hrest := ih fun before name behind hname heq => h (c :: before) name behind hname (by rw [heq]; rfl)
    by_cases hc : c = '$'
    · subst hc
      have hnone : placeholder? cs = none := by
        refine Option.eq_none_iff_forall_ne_some.2 fun name hsome => ?_
        obtain ⟨hname, behind, rfl⟩ := placeholder?_eq_some.1 hsome
        exact h [] name behind hname (by simp [written])
      rw [substituteFrom_alone value hnone, hrest]
    · rw [substituteFrom_other value hc, hrest]

end Pass

end TestTrail.Text.Template

namespace TestTrail.Naming

open TestTrail.Text TestTrail.Text.Template

/-! ## Templates filled in -/

/-- the placeholder of a name -/
def placeholder (name : String) : String := "$\x7b" ++ name ++ "\x7d"

/-- somewhere in the text there is a placeholder -/
def HasPlaceholder (text : String) : Prop :=
  ∃ u name v, Identifier name.toList ∧ text = u ++ placeholder name ++ v

/-- what stands for a placeholder: the value of the first argument with this name, or else the placeholder itself -/
inductive Shown (args : List Arg) (name : String) : String → Prop where
  | value {before behind : List Arg} {a : Arg} (hargs : args = before ++ a :: behind)
      (hfirst : ∀ b ∈ before, b.name ≠ name) (hname : a.name = name) : Shown args name a.value.display
  | unknown (hnone : ∀ a ∈ args, a.name ≠ name) : Shown args name (placeholder name)

theorem toList_placeholder (name : String) : (placeholder name).toList = written name.toList := by
  simp [placeholder, written]

/-- the value of the first argument with this name, character by character -/
def shownChars (args : List Arg) (name : List Char) : Option (List Char) :=
  (valueOf args (String.ofList name)).map String.toList

theorem toList_fill (template : String) (args : List Arg) :
    (fill template args).toList = substituteFrom (shownChars args) 0 template.toList := by
  unfold fill substitute
  rw [String.toList_ofList]
  rfl

theorem shown_valueOf (args : List Arg) (name : String) :
    Shown args name ((valueOf args name).getD (placeholder name)) := by
  unfold valueOf
  cases hfind : args.find? fun a => a.name == name with
  | none =>
    refine .unknown fun a ha hname => ?_
    exact absurd hname (by simpa using List.find?_eq_none.1 hfind a ha)
  | some a =>
    obtain ⟨hname, before, behind, hargs, hfirst⟩ := List.find?_eq_some_iff_append.1 hfind
    exact .value hargs (fun b hb => by simpa using hfirst b hb) (by simpa using hname)

/-- **A template is filled in by one pass.** Cut a template around any placeholder: what is filled in for the whole is
what is filled in for the part before it, then the value of the first argument with its name, or the placeholder as it
is written when there is none, and then what is filled in for the part behind it. A text without placeholders stays as
it is. So what comes out of an argument is never filled in again, and nothing in it joins with the text around it. -/
theorem fill_single_pass (args : List Arg) :
    (∀ u v name : String, Identifier name.toList →
      ∃ x, Shown args name x ∧ fill (u ++ placeholder name ++ v) args = fill u args ++ x ++ fill v args) ∧
      ∀ w : String, ¬ HasPlaceholder w → fill w args = w := by
  refine ⟨fun u v name hname => ⟨_, shown_valueOf args name, ?_⟩, fun w hw => ?_⟩
  · have hshown : ((valueOf args name).getD (placeholder name)).toList =
        (shownChars args name.toList).getD (written name.toList) := by
      rw [shownChars, String.ofList_toList, ← toList_placeholder]
      cases valueOf args name with
      | none => rfl
      | some x => rfl
    have hcut := substituteFrom_before_dollar (shownChars args) u.toList
      ('{' :: (name.toList ++ ['}']) ++ v.toList) 0 (Nat.zero_le _)
    have hbehind := substituteFrom_written (shownChars args) hname v.toList
    refine String.toList_inj.1 ?_
    simp only [toList_fill, String.toList_append, toList_placeholder, hshown, List.append_assoc]
    rw [← hbehind]
    exact hcut
  · refine String.toList_inj.1 ?_
    rw [toList_fill]
    refine substituteFrom_of_none _ fun before name behind hname heq => hw ?_
    refine ⟨String.ofList before, String.ofList name, String.ofList behind, ?_, String.toList_inj.1 ?_⟩
    · rwa [String.toList_ofList]
    · rw [heq, String.toList_append, String.toList_append, toList_placeholder, String.toList_ofList,
        String.toList_ofList, String.toList_ofList, List.append_assoc]

/-- The template ends one placeholder early and starts another one late, and the value looks like a placeholder with a
backslash behind it; the second argument with the same name is not used. -/
theorem value_with_braces_kept :
    let args : List Arg := [⟨"user", .text "$\x7bpwd\x7d\\0"⟩, ⟨"pwd", .int 7⟩, ⟨"user", .text "other"⟩]
    Identifier "user".toList ∧ fill "$\x7bpwd$\x7buser\x7d\x7d" args = "$\x7bpwd$\x7bpwd\x7d\\0\x7d" ∧
      ∃ x, Shown args "user" x ∧
        fill ("$\x7bpwd" ++ placeholder "user" ++ "\x7d") args = fill "$\x7bpwd" args ++ x ++ fill "\x7d" args := by
  intro args
  have huser : Identifier "user".toList :=
    identifier_iff.2 ⟨⟨'u', ['s', 'e', 'r'], rfl, by decide⟩, List.all_eq_true.1 (by decide)⟩
  exact ⟨huser, by decide +kernel, (fill_single_pass args).1 "$\x7bpwd" "\x7d" "user" huser⟩

/-! ## The order of arguments -/

theorem find?_eq_some_of_nodup {args : List Arg} (hnames : (args.map Arg.name).Nodup) {name : String} {a : Arg} :
    (args.find? fun b => b.name == name) = some a ↔ a ∈ args ∧ a.name = name := by
  constructor
  · intro h
    exact ⟨List.mem_of_find?_eq_some h, by simpa using List.find?_some h⟩
  · rintro ⟨hmem, rfl⟩
    cases hfind : args.find? fun b => b.name == a.name with
    | none => simpa using List.find?_eq_none.1 hfind a hmem
    | some b =>
      have hb : b.name = a.name := by simpa using List.find?_some hfind
      rw [List.inj_on_of_nodup_map hnames (List.mem_of_find?_eq_some hfind) hmem hb]

/-- among arguments with distinct names, a name finds the same one in any order -/
theorem valueOf_perm {args others : List Arg} (hperm : args.Perm others) (hnames : (args.map Arg.name).Nodup)
    (name : String) : valueOf args name = valueOf others name := by
  have hnames' : (others.map Arg.name).Nodup := (hperm.map Arg.name).nodup_iff.1 hnames
  unfold valueOf
  refine congrArg _ (Option.ext fun a => ?_)
  rw [find?_eq_some_of_nodup hnames, find?_eq_some_of_nodup hnames', hperm.mem_iff]

theorem mem_secretsOf_perm {args others : List Arg} (hperm : args.Perm others) (op : Operation) (s : String) :
    s ∈ secretsOf op args ↔ s ∈ secretsOf op others :=
  ((hperm.filter _).flatMap_right _).mem_iff

/-- **A name made from a template does not depend on the order of the arguments.** For any operation with a template,
and arguments with distinct names, the name is the same for every other order of them, with masking on and off. -/
theorem templated_name_of_perm (op : Operation) (template : String) (htemplate : op.template = some template)
    (args others : List Arg) (hperm : args.Perm others) (hnames : (args.map Arg.name).Nodup) (subject : Option String)
    (enabled : Bool) : name enabled op subject args = name enabled op subject others := by
  have hplain : plainName op subject args = plainName op subject others := by
    have hvalue : valueOf args = valueOf others := funext (valueOf_perm hperm hnames)
    unfold plainName fill
    rw [htemplate, hvalue]
  have hmask : ∀ text, mask (secretsOf op args) text = mask (secretsOf op others) text :=
    mask_congr fun s _ => mem_secretsOf_perm hperm op s
  unfold name maskWhen
  rw [hplain, hmask]

/-- a password that the code begins with: the longer one is masked where both start, whichever comes first -/
theorem login_name_in_any_order :
    let template := "$\x7bcode\x7d for $\x7bpwd\x7d, $\x7bu\x7d"
    let op := ((Operation.ofKind "login" .step).withTemplate template).masking "code"
    let args : List Arg := [⟨"pwd", .text "ab"⟩, ⟨"u", .text "abba"⟩, ⟨"code", .text "abcd"⟩]
    op.template = some template ∧ args.Perm args.reverse ∧ (args.map Arg.name).Nodup ∧
      secretsOf op args ≠ secretsOf op args.reverse ∧ name true op none args = "****** for ******, ******ba" ∧
      name true op none args = name true op none args.reverse := by
  intro template op args
  have hperm : args.Perm args.reverse := (List.reverse_perm args).symm
  have hnames : (args.map Arg.name).Nodup := by decide
  exact ⟨rfl, hperm, hnames, by decide +kernel, by decide +kernel,
    templated_name_of_perm op _ rfl args args.reverse hperm hnames none true⟩

end TestTrail.Naming
