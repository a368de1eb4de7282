/-
Structures, written as objects and read again.

A row is what an object has to say about a structure: for each field a name, and a value where one is written. A reader
finds each field of a row where it was written, since no name stands there twice (`fields?_row`), and so it does behind
a tag (`tagged?_row`). The other lemmas are about single fields: what was written is read again, and a field that was
left out, or written as null, is read as nothing.
-/
import TestTrail.Json.Fields

namespace TestTrail.Json

variable {α β γ : Type}

/-! ## Lists -/

theorem mapM_map_eq_some {write : α → β} {read : β → Option γ} {out : α → γ} (l : List α)
    (h : ∀ a ∈ l, read (write a) = some (out a)) : (l.map write).mapM read = some (l.map out) := by
  induction l with
  | nil => rfl
  | cons a l ih =>
    rw [List.map_cons, List.mapM_cons, h a List.mem_cons_self, ih fun b hb => h b (List.mem_cons_of_mem a hb)]
    rfl

/-- each result stands in the place of what it was read from -/
theorem getElem?_mapM {read : α → Option β} {l : List α} {out : List β} (h : l.mapM read = some out) {i : Nat} {b : β}
    (hb : out[i]? = some b) : ∃ a, l[i]? = some a ∧ read a = some b := by
  induction l generalizing out i with
  | nil =>
    rw [List.mapM_nil] at h
    cases h
    cases hb
  | cons a l ih =>
    rw [List.mapM_cons] at h
    obtain ⟨c, hc, h⟩ := Option.bind_eq_some_iff.1 h
    obtain ⟨rest, hrest, h⟩ := Option.bind_eq_some_iff.1 h
    cases h
    cases i with
    | zero =>
      obtain rfl : c = b := Option.some.inj hb
      exact ⟨a, rfl, hc⟩
    | succ i => exact ih hrest hb

theorem exists_of_mem_mapM {read : α → Option β} {l : List α} {out : List β} (h : l.mapM read = some out) {b : β}
    (hb : b ∈ out) : ∃ a ∈ l, read a = some b := by
  obtain ⟨i, hi⟩ := List.mem_iff_getElem?.1 hb
  obtain ⟨a, ha, hread⟩ := getElem?_mapM h hi
  exact ⟨a, List.mem_of_getElem? ha, hread⟩

theorem toList?_map {write : α → Json} {read : Json → Option α} (l : List α) (h : ∀ a ∈ l, read (write a) = some a) :
    toList? read (arr (l.map write)) = some l := by
  have hread : (l.map write).mapM read = some (l.map id) := mapM_map_eq_some l h
  rwa [List.map_id] at hread

@[simp] theorem toStrings?_strings (l : List String) : toStrings? (strings l) = some l :=
  toList?_map l fun _ _ => rfl

/-! ## Depths -/

theorem depth_le_depthItems {items : List Json} {j : Json} (h : j ∈ items) : j.depth ≤ depthItems items := by
  induction items with
  | nil => cases h
  | cons i items ih =>
    rw [depthItems]
    rcases List.mem_cons.1 h with rfl | hmem
    · exact Nat.le_max_left _ _
    · exact Nat.le_trans (ih hmem) (Nat.le_max_right _ _)

theorem depth_le_depthMembers {members : List (String × Json)} {m : String × Json} (h : m ∈ members) :
    m.2.depth ≤ depthMembers members := by
  induction members with
  | nil => cases h
  | cons n members ih =>
    rw [depthMembers]
    rcases List.mem_cons.1 h with rfl | hmem
    · exact Nat.le_max_left _ _
    · exact Nat.le_trans (ih hmem) (Nat.le_max_right _ _)

/-- the items of a list are two levels below the object that holds it -/
theorem depth_lt_of_mem_items {members : List (String × Json)} {name : String} {items : List Json} {j : Json}
    (hmember : (name, arr items) ∈ members) (h : j ∈ items) : j.depth < (obj members).depth := by
  have hmembers : (arr items).depth ≤ depthMembers members := depth_le_depthMembers hmember
  have hitems := depth_le_depthItems h
  simp only [depth] at hmembers ⊢
  omega

/-! ## Single fields -/

@[simp] theorem required_some (j : Json) (read : Json → Option α) : required (some j) read = read j := rfl

@[simp] theorem orElse_some (j : Json) (read : Json → Option α) (default : α) :
    orElse (some j) read default = read j := rfl

@[simp] theorem toString?_str (s : String) : toString? (str s) = some s := rfl

@[simp] theorem toBool?_bool (b : Bool) : toBool? (bool b) = some b := rfl

@[simp] theorem toNat?_int (n : Nat) : toNat? (int n) = some n := rfl

@[simp] theorem toUInt32?_int (n : UInt32) : toUInt32? (int n.toNat) = some n := by
  have hlimit : n.toNat < Word.limit32 := n.toNat_lt
  exact (if_pos hlimit).trans (congrArg some UInt32.ofNat_toNat)

@[simp] theorem toInt64?_int (i : Int64) : toInt64? (int i.toInt) = some i := by
  have hrange : -9223372036854775808 ≤ i.toInt ∧ i.toInt < 9223372036854775808 := ⟨i.le_toInt, i.toInt_lt⟩
  exact (if_pos hrange).trans (congrArg some (Int64.ofInt_toInt i))

/-- what is left out when it is nothing -/
theorem optional_map {write : α → Json} {read : Json → Option α} (hread : ∀ a, read (write a) = some a)
    (hnull : ∀ a, write a ≠ null) (o : Option α) : optional (o.map write) read = some o := by
  cases o with
  | none => rfl
  | some a =>
    rw [Option.map_some, optional, hread a]
    · rfl
    · intro h
      exact hnull a h

/-- what is null when it is nothing -/
theorem optional_getD_null {write : α → Json} {read : Json → Option α} (hread : ∀ a, read (write a) = some a)
    (hnull : ∀ a, write a ≠ null) (o : Option α) : optional (some ((o.map write).getD null)) read = some o := by
  cases o with
  | none => rfl
  | some a => exact optional_map hread hnull (some a)

@[simp] theorem optional_str (o : Option String) : optional (o.map str) toString? = some o :=
  optional_map toString?_str (fun _ => Json.noConfusion) o

@[simp] theorem optional_ofOption (o : Option String) : optional (some (ofOption o)) toString? = some o := by
  cases o <;> rfl

@[simp] theorem optional_nat (o : Option Nat) : optional (o.map fun n : Nat => int n) toNat? = some o :=
  optional_map toNat?_int (fun _ => Json.noConfusion) o

/-! ## Rows -/

/-- the members of an object that writes these fields -/
def row (fields : List (String × Option Json)) : List (String × Json) := fields.flatMap fun f => present f.1 id f.2

@[simp] theorem row_nil : row [] = [] := rfl

theorem row_cons (f : String × Option Json) (fields : List (String × Option Json)) :
    row (f :: fields) = present f.1 id f.2 ++ row fields := rfl

/-- a field that is always written -/
@[simp] theorem row_cons_some (name : String) (j : Json) (fields : List (String × Option Json)) :
    row ((name, some j) :: fields) = (name, j) :: row fields := rfl

/-- a field that is left out when it is nothing -/
@[simp] theorem row_cons_map (name : String) (write : α → Json) (o : Option α) (fields : List (String × Option Json)) :
    row ((name, o.map write) :: fields) = present name write o ++ row fields := by
  cases o <;> rfl

variable {fields : List (String × Option Json)} {names : List String} {name : String}

theorem name_of_mem_present {v : Option Json} {m : String × Json} (h : m ∈ present name id v) : m.1 = name := by
  cases v with
  | none => cases h
  | some j => rw [List.mem_singleton.1 h]

theorem name_mem_of_mem_row {m : String × Json} (h : m ∈ row fields) : m.1 ∈ fields.map Prod.fst := by
  obtain ⟨f, hf, hm⟩ := List.mem_flatMap.1 h
  rw [name_of_mem_present hm]
  exact List.mem_map_of_mem hf

/-- of a name that no field has, there is no member -/
theorem filter_row_eq_nil (h : name ∉ fields.map Prod.fst) : (row fields).filter (fun m => m.1 == name) = [] := by
  rw [List.filter_eq_nil_iff]
  intro m hm heq
  exact h (eq_of_beq heq ▸ name_mem_of_mem_row hm)

theorem filter_present (name : String) (v : Option Json) :
    (present name id v).filter (fun m => m.1 == name) = present name id v :=
  List.filter_eq_self.2 fun _ hm => beq_iff_eq.2 (name_of_mem_present hm)

theorem single?_row {f : String × Option Json} (h : (fields.map Prod.fst).Nodup) (hf : f ∈ fields) :
    single? (row fields) f.1 = some f.2 := by
  have hmembers : (row fields).filter (fun m => m.1 == f.1) = present f.1 id f.2 := by
    induction fields with
    | nil => cases hf
    | cons g fields ih =>
      rw [List.map_cons, List.nodup_cons] at h
      rw [row_cons, List.filter_append]
      rcases List.mem_cons.1 hf with rfl | hmem
      · rw [filter_present, filter_row_eq_nil h.1, List.append_nil]
      · have hne : g.1 ≠ f.1 := fun heq => h.1 (heq ▸ List.mem_map_of_mem hmem)
        have hother : (present g.1 id g.2).filter (fun m => m.1 == f.1) = [] :=
          List.filter_eq_nil_iff.2 fun m hm heq => hne ((name_of_mem_present hm).symm.trans (eq_of_beq heq))
        rw [hother, List.nil_append, ih h.2 hmem]
  unfold single?
  rw [hmembers]
  cases f.2 <;> rfl

/-- **Each field of a row is read as it was written.** -/
theorem fields?_row (hnames : fields.map Prod.fst = names) (h : names.Nodup) :
    (obj (row fields)).fields? names = some (fields.map Prod.snd) := by
  subst hnames
  exact mapM_map_eq_some fields fun f hf => single?_row h hf

/-- a tag in front of a row is told apart from it -/
theorem tagged?_row {key tag : String} {tags : List String} (buffered : Bool) (h : key ∉ fields.map Prod.fst)
    (htag : tag ∈ tags) :
    (obj ((key, str tag) :: row fields)).tagged? key buffered tags = some (tag, obj (row fields)) := by
  have hrest : (row fields).filter (fun m => m.1 != key) = row fields := by
    rw [List.filter_eq_self]
    intro m hm
    exact bne_iff_ne.2 fun heq => h (heq ▸ name_mem_of_mem_row hm)
  have hcontains : tags.contains tag = true := List.contains_iff_mem.2 htag
  unfold tagged?
  simp only [List.filter_cons, BEq.rfl, ↓reduceIte, filter_row_eq_nil h, bne_self_eq_false, Bool.false_eq_true, hrest]
  rw [constructor?, if_pos hcontains]
  rfl

end TestTrail.Json
