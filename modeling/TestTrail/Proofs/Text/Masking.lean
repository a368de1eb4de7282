/-
Masking leaves no secret.

A text without stars that occurs in a masked text occurs in a stretch that masking has kept as it was, since every
secret has given way to stars. So it occurs in the text before masking (`infix_of_infix_mask`), and at its place no
secret starts: it is none of the secrets (`not_infix_mask`). With the first of the two, a second masking with other
secrets brings nothing back that the first one has taken out.
-/
import TestTrail.Text.Mask
import Mathlib.Tactic

namespace TestTrail.Text

/-- the text does not contain the value -/
def Hides (value text : String) : Prop := ¬ value.toList <:+: text.toList

instance (value text : String) : Decidable (Hides value text) := inferInstanceAs (Decidable (¬ _))

/-! ## The list of secrets -/

theorem mem_insertByLength (x s : List Char) (list : List (List Char)) :
    x ∈ insertByLength s list ↔ x = s ∨ x ∈ list := by
  induction list with
  | nil => exact List.mem_singleton.trans (or_iff_left List.not_mem_nil).symm
  | cons t list ih =>
    rw [insertByLength]
    split_ifs
    · exact List.mem_cons
    · rw [List.mem_cons, ih, List.mem_cons, or_left_comm]

theorem mem_eraseRepsLoop (x s : List Char) (list before : List (List Char)) :
    x ∈ List.eraseRepsBy.loop (· == ·) s list before ↔ x ∈ before ∨ x = s ∨ x ∈ list := by
  induction list generalizing s before with
  | nil => simp [List.eraseRepsBy.loop]
  | cons t list ih =>
    rw [List.eraseRepsBy.loop]
    cases hst : s == t with
    | true =>
      simp only
      rw [ih, eq_of_beq hst, List.mem_cons, or_self_left]
    | false =>
      simp only
      rw [ih, List.mem_cons, List.mem_cons, or_comm (a := x = s), or_assoc]

theorem mem_eraseReps (x : List Char) (list : List (List Char)) : x ∈ list.eraseReps ↔ x ∈ list := by
  cases list with
  | nil => exact Iff.rfl
  | cons s list =>
    refine (mem_eraseRepsLoop x s list []).trans ?_
    rw [List.mem_cons, or_iff_right List.not_mem_nil]

/-- the list holds the secrets that are not empty, in an order of its own -/
theorem mem_listed {secrets : List (List Char)} {s : List Char} : s ∈ listed secrets ↔ s ∈ secrets ∧ s ≠ [] := by
  have hinserted : ∀ list : List (List Char), s ∈ list.foldr insertByLength [] ↔ s ∈ list := by
    intro list
    induction list with
    | nil => exact Iff.rfl
    | cons t list ih => rw [List.foldr_cons, mem_insertByLength, ih, List.mem_cons]
  rw [listed, mem_eraseReps, hinserted, List.mem_filter]
  simp

theorem firstMatch?_eq_none {list : List (List Char)} {text : List Char} :
    firstMatch? list text = none ↔ ∀ s ∈ list, ¬ s <+: text := by
  unfold firstMatch?
  simp only [List.find?_eq_none, List.isPrefixOf_iff_prefix]

/-! ## What occurs in a masked text -/

/-- what shares no character with the front of a text occurs behind it, if at all -/
theorem infix_of_infix_append {w front rest : List Char} (hd : ∀ c ∈ front, c ∉ w) (h : w <:+: front ++ rest) :
    w <:+: rest := by
  induction front with
  | nil => exact h
  | cons c front ih =>
    rcases List.infix_cons_iff.1 h with hprefix | hinfix
    · rcases List.prefix_cons_iff.1 hprefix with rfl | ⟨t, rfl, -⟩
      · exact List.nil_infix
      · exact absurd List.mem_cons_self (hd c List.mem_cons_self)
    · exact ih (fun a ha => hd a (List.mem_cons_of_mem c ha)) hinfix

/-- a text without stars does not reach into stars -/
theorem infix_of_infix_stars {w rest : List Char} (hstar : '*' ∉ w) (h : w <:+: stars ++ rest) : w <:+: rest := by
  have hall : ∀ c ∈ stars, c = '*' := by simp [stars]
  exact infix_of_infix_append (fun c hc => by rw [hall c hc]; exact hstar) h

/-- a text without stars that starts a masked text starts the text itself, and no secret does -/
theorem prefix_of_prefix_mask {list : List (List Char)} {w cs : List Char} (hstar : '*' ∉ w)
    (h : w <+: maskFrom list 0 cs) : w <+: cs ∧ (w ≠ [] → firstMatch? list cs = none) := by
  induction cs generalizing w with
  | nil =>
    have hw : w = [] := List.eq_nil_of_prefix_nil h
    exact ⟨hw ▸ List.nil_prefix, fun hne => absurd hw hne⟩
  | cons c cs ih =>
    cases w with
    | nil => exact ⟨List.nil_prefix, fun hne => absurd rfl hne⟩
    | cons a w =>
      rw [maskFrom] at h
      cases hmatch : firstMatch? list (c :: cs) with
      | none =>
        rw [hmatch] at h
        obtain ⟨hac, hw⟩ := List.cons_prefix_cons.1 h
        have hrest := ih (fun hmem => hstar (List.mem_cons_of_mem a hmem)) hw
        exact ⟨List.cons_prefix_cons.2 ⟨hac, hrest.1⟩, fun _ => rfl⟩
      | some s =>
        rw [hmatch] at h
        have hac : a = '*' := (List.cons_prefix_cons.1 h).1
        exact absurd (hac ▸ List.mem_cons_self) hstar

/-- where a text without stars occurs in a masked text, it occurs in the text itself, and no secret starts there -/
theorem place_of_infix_mask {list : List (List Char)} {w : List Char} (hstar : '*' ∉ w) (hne : w ≠ []) (skip : Nat)
    {cs : List Char} (h : w <:+: maskFrom list skip cs) :
    ∃ rest, rest <:+ cs ∧ w <+: rest ∧ firstMatch? list rest = none := by
  induction cs generalizing skip with
  | nil =>
    rw [maskFrom] at h
    exact absurd (List.eq_nil_of_infix_nil h) hne
  | cons c cs ih =>
    have hlater : ∀ k, w <:+: maskFrom list k cs →
        ∃ rest, rest <:+ c :: cs ∧ w <+: rest ∧ firstMatch? list rest = none := by
      intro k hk
      obtain ⟨rest, hrest, hw, hnone⟩ := ih k hk
      exact ⟨rest, hrest.trans (List.suffix_cons c cs), hw, hnone⟩
    cases skip with
    | succ skip =>
      rw [maskFrom] at h
      exact hlater skip h
    | zero =>
      by_cases hstart : w <+: maskFrom list 0 (c :: cs)
      · obtain ⟨hw, hnone⟩ := prefix_of_prefix_mask hstar hstart
        exact ⟨c :: cs, List.suffix_refl _, hw, hnone hne⟩
      · rw [maskFrom] at h hstart
        cases hmatch : firstMatch? list (c :: cs) with
        | none =>
          rw [hmatch] at h hstart
          exact hlater 0 ((List.infix_cons_iff.1 h).resolve_left hstart)
        | some s =>
          rw [hmatch] at h
          exact hlater (s.length - 1) (infix_of_infix_stars hstar h)

/-- **No secret is left**, except where stars are part of it. -/
theorem not_infix_mask {secrets : List (List Char)} {w : List Char} (hmem : w ∈ secrets) (hstar : '*' ∉ w)
    (hne : w ≠ []) (cs : List Char) : ¬ w <:+: maskChars secrets cs := by
  intro h
  obtain ⟨rest, -, hw, hnone⟩ := place_of_infix_mask hstar hne 0 h
  exact firstMatch?_eq_none.1 hnone w (mem_listed.2 ⟨hmem, hne⟩) hw

/-- **Masking brings nothing in** but stars. -/
theorem infix_of_infix_mask {secrets : List (List Char)} {w cs : List Char} (hstar : '*' ∉ w)
    (h : w <:+: maskChars secrets cs) : w <:+: cs := by
  by_cases hne : w = []
  · rw [hne]
    exact List.nil_infix
  · obtain ⟨rest, hrest, hw, -⟩ := place_of_infix_mask hstar hne 0 h
    exact hw.isInfix.trans hrest.isInfix

/-! ## Texts -/

theorem toList_ne_nil {value : String} (h : value ≠ "") : value.toList ≠ [] := by
  simpa using h

theorem hides_mask {secrets : List String} {value : String} (hmem : value ∈ secrets) (hstar : '*' ∉ value.toList)
    (hne : value ≠ "") (text : String) : Hides value (mask secrets text) := by
  unfold Hides mask
  rw [String.toList_ofList]
  exact not_infix_mask (List.mem_map_of_mem hmem) hstar (toList_ne_nil hne) text.toList

theorem Hides.mask {value text : String} (h : Hides value text) (hstar : '*' ∉ value.toList) (secrets : List String) :
    Hides value (mask secrets text) := by
  unfold Hides Text.mask
  rw [String.toList_ofList]
  exact fun hinfix => h (infix_of_infix_mask hstar hinfix)

end TestTrail.Text
