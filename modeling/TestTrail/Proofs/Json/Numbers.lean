/-
The numbers that JSON values have.

A JSON value is proper when its whole numbers have 64 bits at most and its other numbers are finite (`Json.proper`).
What is read from a text is proper (`Json.proper_of_ofText?`): a number beyond the range has no value at all. Rounding
keeps whole numbers of 64 bits finite (`Binary64.isFinite_ofInt`).
-/
import Mathlib.Algebra.Group.Nat.Defs
import TestTrail.Json.Reader
import TestTrail.Proofs.Json.Fields

namespace TestTrail

namespace Decimal.Binary64

theorem magnitude_ofBits (negative : Bool) {m : Nat} (h : m < signBit) : (ofBits negative m).magnitude = m := by
  have hsign : signBit = 9223372036854775808 := rfl
  unfold magnitude ofBits
  rw [hsign] at h ⊢
  cases negative with
  | false =>
    simp only [Bool.false_eq_true, ↓reduceIte, UInt64.toNat_ofNat']
    omega
  | true =>
    simp only [↓reduceIte, UInt64.toNat_ofNat']
    omega

theorem isFinite_ofBits (negative : Bool) {m : Nat} (h : m < infinityBits) : (ofBits negative m).isFinite = true := by
  unfold isFinite
  rw [magnitude_ofBits negative (Nat.lt_trans h (by decide))]
  exact decide_eq_true h

theorem isFinite_of_isZero {x : Binary64} (h : x.isZero = true) : x.isFinite = true := by
  have hzero : x.magnitude = 0 := eq_of_beq h
  unfold isFinite
  rw [hzero]
  rfl

theorem roundHalfEven_le (num den : Nat) : roundHalfEven num den ≤ num / den + 1 := by
  unfold roundHalfEven
  dsimp only
  split
  · exact Nat.le_refl _
  · exact Nat.le_succ _

/-- the exponent leaves a significand of at most 54 bits, and is small for numbers of 64 bits -/
theorem exponentFor_bounds {n : Nat} (hn : n ≠ 0) (h : n < 2 ^ 64) :
    (Nat.log2 n : Int) - 53 ≤ exponentFor n 1 ∧ exponentFor n 1 ≤ 11 := by
  have hlog : Nat.log2 n < 64 := (Nat.log2_lt hn).2 h
  have hone : Nat.log2 1 = 0 := rfl
  unfold exponentFor
  rw [hone]
  dsimp only
  split <;> split <;> omega

theorem significand_le {n : Nat} {e : Int} (h : (Nat.log2 n : Int) - 53 ≤ e) :
    (match e with
      | .ofNat k => roundHalfEven n (1 * Nat.pow 2 k)
      | .negSucc k => roundHalfEven (n * Nat.pow 2 (k + 1)) 1) ≤ 2 ^ 54 := by
  have hlog : n < 2 ^ (Nat.log2 n + 1) := Nat.lt_log2_self
  cases e with
  | ofNat k =>
    have hk : (Nat.log2 n : Int) - 53 ≤ (k : Int) := h
    have hn : n < 2 ^ k * 2 ^ 54 := by
      rw [← Nat.pow_add]
      exact Nat.lt_of_lt_of_le hlog (Nat.pow_le_pow_right (by decide) (by omega))
    have hquotient : n / (1 * 2 ^ k) < 2 ^ 54 := Nat.div_lt_of_lt_mul (by rwa [Nat.one_mul])
    exact Nat.le_trans (roundHalfEven_le _ _) hquotient
  | negSucc k =>
    have hn : n * 2 ^ (k + 1) < 2 ^ 54 := by
      have hscaled : n * 2 ^ (k + 1) < 2 ^ (Nat.log2 n + 1) * 2 ^ (k + 1) :=
        Nat.mul_lt_mul_of_pos_right hlog (Nat.two_pow_pos (k + 1))
      rw [← Nat.pow_add] at hscaled
      exact Nat.lt_of_lt_of_le hscaled (Nat.pow_le_pow_right (by decide) (by omega))
    have hquotient : n * 2 ^ (k + 1) / 1 < 2 ^ 54 := by rwa [Nat.div_one]
    exact Nat.le_trans (roundHalfEven_le _ _) hquotient

theorem magnitudeOfRatio_lt {n : Nat} (h : n < 2 ^ 64) : magnitudeOfRatio n 1 < infinityBits := by
  unfold magnitudeOfRatio
  by_cases hn : n = 0
  · rw [if_pos hn]
    decide
  · rw [if_neg hn]
    obtain ⟨hlow, hhigh⟩ := exponentFor_bounds hn h
    have hexponent : (exponentFor n 1 + 1074).toNat ≤ 1085 := by omega
    refine Nat.lt_of_le_of_lt (Nat.min_le_right _ _) ?_
    refine Nat.lt_of_le_of_lt (Nat.add_le_add (Nat.mul_le_mul_right binade hexponent) (significand_le hlow)) ?_
    decide

theorem isFinite_ofInt {i : Int} (h : i.natAbs < 2 ^ 64) : (ofInt i).isFinite = true :=
  isFinite_ofBits _ (magnitudeOfRatio_lt h)

end Decimal.Binary64

namespace Json

open Text Decimal

mutual

/-- the whole numbers in a value have 64 bits at most, and its other numbers are finite -/
def proper : Json → Bool
  | int i => decide (-9223372036854775808 ≤ i ∧ i < 18446744073709551616)
  | float x => x.isFinite
  | arr items => properItems items
  | obj members => properMembers members
  | _ => true

def properItems : List Json → Bool
  | [] => true
  | j :: rest => j.proper && properItems rest

def properMembers : List (String × Json) → Bool
  | [] => true
  | (_, j) :: rest => j.proper && properMembers rest

end

theorem properItems_iff {items : List Json} : properItems items = true ↔ ∀ j ∈ items, j.proper = true := by
  induction items with
  | nil => simp [properItems]
  | cons i items ih => rw [properItems, Bool.and_eq_true, ih, List.forall_mem_cons]

theorem properMembers_iff {members : List (String × Json)} :
    properMembers members = true ↔ ∀ m ∈ members, m.2.proper = true := by
  induction members with
  | nil => simp [properMembers]
  | cons m members ih => rw [properMembers, Bool.and_eq_true, ih, List.forall_mem_cons]

/-! ## Numbers in text -/

theorem isFinite_of_scaled? {x y : Binary64} {exponent : Int} {steps : Nat} (h : scaled? x exponent steps = some y) :
    y.isFinite = true := by
  induction steps generalizing x exponent with
  | zero =>
    rw [scaled?, Option.some.injEq] at h
    rw [← h]
    exact Binary64.isFinite_ofBits false (by decide)
  | succ steps ih =>
    rw [scaled?] at h
    by_cases hstep : exponent.natAbs ≤ stepLimit
    · rw [if_pos hstep] at h
      dsimp only at h
      generalize (if 0 ≤ exponent then x.times (Binary64.powerOfTen exponent.natAbs)
        else x.dividedBy (Binary64.powerOfTen exponent.natAbs)) = scaled at h
      split at h
      · rename_i hfinite
        rwa [← Option.some.inj h]
      · cases h
    · rw [if_neg hstep] at h
      by_cases hzero : x.isZero = true
      · rw [if_pos hzero] at h
        rw [← Option.some.inj h]
        exact Binary64.isFinite_of_isZero hzero
      · rw [if_neg hzero] at h
        split at h
        · cases h
        · exact ih h

theorem proper_ofScaled (negative : Bool) (n : Nat) (exponent : Int) :
    (ofScaled negative n exponent).proper = true := by
  unfold ofScaled
  cases hscaled : scaled? (Binary64.ofRatio false n 1) exponent 4 with
  | none => rfl
  | some x => exact Binary64.isFinite_ofBits negative (of_decide_eq_true (isFinite_of_scaled? hscaled))

theorem wholeDigits_lt {n : Nat} (h : n < Word.limit64) (digits : List Char) :
    (wholeDigits n digits).1 < Word.limit64 := by
  induction digits generalizing n with
  | nil => exact h
  | cons c cs ih =>
    rw [wholeDigits]
    split
    · rename_i hfits
      exact ih hfits
    · exact h

theorem proper_int {i : Int} (h : -9223372036854775808 ≤ i ∧ i < 18446744073709551616) : (int i).proper = true :=
  decide_eq_true h

theorem proper_ofWhole (negative : Bool) (digits : List Char) : (ofWhole negative digits).proper = true := by
  have hlt : (wholeDigits 0 digits).1 < Word.limit64 := wholeDigits_lt (by decide) digits
  have hlimit : Word.limit64 = 18446744073709551616 := rfl
  have hhalf : Word.limit63 = 9223372036854775808 := rfl
  unfold ofWhole
  rcases hdigits : wholeDigits 0 digits with ⟨n, _ | dropped⟩
  · rw [hdigits, hlimit] at hlt
    cases negative with
    | false =>
      simp only [Bool.false_eq_true, ↓reduceIte]
      exact proper_int (by omega)
    | true =>
      by_cases hbig : (n = 0 || Word.limit63 < n) = true
      · simp only [↓reduceIte, hbig]
        exact proper_ofScaled true n 0
      · simp only [↓reduceIte, hbig]
        simp only [Bool.or_eq_true, decide_eq_true_eq, not_or, hhalf] at hbig
        exact proper_int (by omega)
  · exact proper_ofScaled negative _ _

theorem proper_ofDecimalParts (negative : Bool) (whole fraction : List Char) (exponent : Int) :
    (ofDecimalParts negative whole fraction exponent).proper = true :=
  proper_ofScaled negative _ _

/-- a number without exponent -/
theorem proper_plain (negative : Bool) (whole fraction : List Char) :
    (if fraction.isEmpty then ofWhole negative whole else ofDecimalParts negative whole fraction 0).proper = true := by
  split
  · exact proper_ofWhole negative whole
  · exact proper_ofDecimalParts negative whole fraction 0

theorem proper_of_numberTail? {negative : Bool} {whole cs rest : List Char} {j : Json}
    (h : numberTail? negative whole cs = some (j, rest)) : j.proper = true := by
  unfold numberTail? at h
  dsimp only at h
  split at h
  · cases h
  · rename_i fraction after _
    split at h
    · rename_i c more
      split at h
      · obtain ⟨⟨e, left⟩, -, heq⟩ := Option.map_eq_some_iff.1 h
        rw [← (Prod.mk.inj heq).1]
        exact proper_ofDecimalParts negative whole fraction e
      · rw [← (Prod.mk.inj (Option.some.inj h)).1]
        exact proper_plain negative whole fraction
    · rw [← (Prod.mk.inj (Option.some.inj h)).1]
      exact proper_plain negative whole fraction

theorem proper_of_number? {cs rest : List Char} {j : Json} (h : number? cs = some (j, rest)) : j.proper = true := by
  unfold number? at h
  dsimp only at h
  split at h
  · split at h
    · exact proper_of_numberTail? (Option.ite_none_left_eq_some.1 h).2
    · exact proper_of_numberTail? h
  · exact proper_of_numberTail? (Option.ite_none_left_eq_some.1 h).2

/-! ## Values in text -/

theorem proper_of_word? {word : String} {value j : Json} {cs rest : List Char} (hvalue : value.proper = true)
    (h : word? word value cs = some (j, rest)) : j.proper = true := by
  unfold word? at h
  dsimp only at h
  split at h
  · rwa [← (Prod.mk.inj (Option.some.inj h)).1]
  · cases h

theorem proper_ofMembers {members : List (Option String × Json)} (h : ∀ m ∈ members, m.2.proper = true) :
    (ofMembers members).proper = true := by
  unfold ofMembers
  split
  · rename_i named hnamed
    refine properMembers_iff.2 fun m hm => ?_
    obtain ⟨n, hn, hread⟩ := exists_of_mem_mapM hnamed hm
    obtain ⟨name, -, rfl⟩ := Option.map_eq_some_iff.1 hread
    exact h n hn
  · rfl

/-- the readers of values, items and members read proper values with this much fuel -/
structure ReadsProper (fuel : Nat) : Prop where
  value : ∀ {cs rest j}, value? fuel cs = some (j, rest) → j.proper = true
  items : ∀ {done cs rest j}, (∀ i ∈ done, i.proper = true) → items? fuel done cs = some (j, rest) → j.proper = true
  members : ∀ {done cs rest j}, (∀ m ∈ done, m.2.proper = true) → members? fuel done cs = some (j, rest) →
    j.proper = true

variable {fuel : Nat} {cs rest : List Char} {j : Json}

theorem ReadsProper.value_succ (ih : ReadsProper fuel) (h : value? (fuel + 1) cs = some (j, rest)) :
    j.proper = true := by
  rw [value?] at h
  split at h
  · cases h
  · rename_i c more _
    by_cases hstring : c = '"'
    · rw [if_pos hstring] at h
      obtain ⟨⟨s, left⟩, -, heq⟩ := Option.map_eq_some_iff.1 h
      rw [← (Prod.mk.inj heq).1]
      cases s <;> rfl
    rw [if_neg hstring] at h
    by_cases harray : c = '['
    · rw [if_pos harray] at h
      split at h
      · rw [← (Prod.mk.inj (Option.some.inj h)).1]
        rfl
      · exact ih.items (fun i hi => absurd hi List.not_mem_nil) h
    rw [if_neg harray] at h
    by_cases hobject : c = '\x7b'
    · rw [if_pos hobject] at h
      split at h
      · rw [← (Prod.mk.inj (Option.some.inj h)).1]
        rfl
      · exact ih.members (fun i hi => absurd hi List.not_mem_nil) h
    rw [if_neg hobject] at h
    split at h
    · exact proper_of_word? rfl h
    · split at h
      · exact proper_of_word? rfl h
      · split at h
        · exact proper_of_word? rfl h
        · exact proper_of_number? h

theorem ReadsProper.items_succ (ih : ReadsProper fuel) {done : List Json} (hdone : ∀ i ∈ done, i.proper = true)
    (h : items? (fuel + 1) done cs = some (j, rest)) : j.proper = true := by
  rw [items?] at h
  split at h
  · cases h
  · rename_i item left hitem
    have hall : ∀ i ∈ item :: done, i.proper = true := List.forall_mem_cons.2 ⟨ih.value hitem, hdone⟩
    split at h
    · exact ih.items hall h
    · rw [← (Prod.mk.inj (Option.some.inj h)).1]
      exact properItems_iff.2 fun i hi => hall i (List.mem_reverse.1 hi)
    · cases h

theorem ReadsProper.members_succ (ih : ReadsProper fuel) {done : List (Option String × Json)}
    (hdone : ∀ m ∈ done, m.2.proper = true) (h : members? (fuel + 1) done cs = some (j, rest)) : j.proper = true := by
  rw [members?] at h
  split at h
  · split at h
    · cases h
    · rename_i name _ _
      split at h
      · split at h
        · cases h
        · rename_i value left hvalue
          have hall : ∀ m ∈ (name, value) :: done, m.2.proper = true :=
            List.forall_mem_cons.2 ⟨ih.value hvalue, hdone⟩
          split at h
          · exact ih.members hall h
          · rw [← (Prod.mk.inj (Option.some.inj h)).1]
            exact proper_ofMembers fun m hm => hall m (List.mem_reverse.1 hm)
          · cases h
      · cases h
  · cases h

theorem readsProper (fuel : Nat) : ReadsProper fuel := by
  induction fuel with
  | zero => exact ⟨fun h => by simp [value?] at h, fun _ h => by simp [items?] at h, fun _ h => by simp [members?] at h⟩
  | succ fuel ih => exact ⟨ih.value_succ, ih.items_succ, ih.members_succ⟩

/-- **What is read from a text is proper.** -/
theorem proper_of_ofText? {text : String} {j : Json} (h : ofText? text = some j) : j.proper = true := by
  unfold ofText? at h
  dsimp only at h
  split at h
  · rename_i value rest hvalue
    rw [← Option.some.inj (Option.ite_none_right_eq_some.1 h).2]
    exact (readsProper _).value hvalue
  · cases h

/-! ## Parts of proper values -/

variable {α : Type}

theorem mem_of_single? {members : List (String × Json)} {name : String} {x : Json}
    (h : single? members name = some (some x)) : (name, x) ∈ members := by
  unfold single? at h
  split at h
  · cases h
  · rename_i m hm
    have hmem : m ∈ members.filter fun m => m.1 == name := by
      rw [hm]
      exact List.mem_singleton.2 rfl
    obtain ⟨hmember, hname⟩ := List.mem_filter.1 hmem
    rw [← eq_of_beq hname, ← Option.some.inj (Option.some.inj h)]
    exact hmember
  · cases h

theorem proper_of_fields? {names : List String} {fields : List (Option Json)} (hj : j.proper = true)
    (h : j.fields? names = some fields) {x : Json} (hx : some x ∈ fields) : x.proper = true := by
  cases j with
  | obj members =>
    obtain ⟨name, -, hread⟩ := exists_of_mem_mapM h hx
    exact properMembers_iff.1 hj (name, x) (mem_of_single? hread)
  | arr items =>
    rw [fields?] at h
    have hfields := Option.some.inj (Option.ite_none_right_eq_some.1 h).2
    rw [← hfields, List.mem_append] at hx
    rcases hx with hx | hx
    · obtain ⟨i, hi, heq⟩ := List.mem_map.1 hx
      rw [← Option.some.inj heq]
      exact properItems_iff.1 hj i hi
    · cases List.eq_of_mem_replicate hx
  | null | bool | int | float | str | unreadable => cases h

theorem proper_of_tagged? {key tag : String} {buffered : Bool} {tags : List String} {fields : Json}
    (hj : j.proper = true) (h : j.tagged? key buffered tags = some (tag, fields)) : fields.proper = true := by
  unfold tagged? at h
  split at h
  · split at h
    · obtain ⟨t, -, heq⟩ := Option.map_eq_some_iff.1 h
      rw [← (Prod.mk.inj heq).2]
      exact properMembers_iff.2 fun m hm => properMembers_iff.1 hj m (List.mem_filter.1 hm).1
    · cases h
  · obtain ⟨t, -, heq⟩ := Option.map_eq_some_iff.1 h
    rw [← (Prod.mk.inj heq).2]
    exact properItems_iff.2 fun i hi => properItems_iff.1 hj i (List.mem_cons_of_mem _ hi)
  · cases h

/-- what stands in a list that was read was read from a proper value -/
theorem proper_of_mem_toList? {read : Json → Option α} {l : List α} (hj : j.proper = true)
    (h : j.toList? read = some l) {a : α} (ha : a ∈ l) : ∃ i : Json, i.proper = true ∧ read i = some a := by
  cases j with
  | arr items =>
    obtain ⟨i, hi, hread⟩ := exists_of_mem_mapM h ha
    exact ⟨i, properItems_iff.1 hj i hi, hread⟩
  | null | bool | int | float | str | obj | unreadable => cases h

theorem proper_of_mem_orElse {read : Json → Option α} {l : List α} {field : Option Json}
    (hfield : ∀ x, field = some x → x.proper = true) (h : orElse field (toList? read) [] = some l) {a : α}
    (ha : a ∈ l) : ∃ i : Json, i.proper = true ∧ read i = some a := by
  cases field with
  | none =>
    cases h
    cases ha
  | some x => exact proper_of_mem_toList? (hfield x rfl) h ha

end Json

end TestTrail
