/-
What a comma list is read as.

A text spells a list when it joins pieces with commas and each piece is either blank or holds the next entry of the list,
with any blanks around it (`Spells`). Entries are never empty, hold no comma and have no blanks at their ends; blanks
inside them are theirs. Reading and spelling determine each other (`entries_eq_iff`): whatever is read is a list of
entries that the text spells, and a text is read as the entries that it spells, in whatever way it spells them.

Towards this, cutting undoes joining (`pieces_intercalate`), every piece is its trimmed text between blanks
(`exists_padding`), and trimming undoes padding (`trimChars_padded`).
-/
import Mathlib.Data.List.TakeWhile
import TestTrail.Text.CommaList

namespace TestTrail.Text

/-! ## Cutting -/

theorem pieces_of_no_sep {sep : Char} {p : List Char} (h : sep ∉ p) : pieces sep p = [p] := by
  induction p with
  | nil => rfl
  | cons c cs ih =>
    obtain ⟨hc, hcs⟩ := not_or.1 (mt List.mem_cons.2 h)
    rw [pieces, if_neg (Ne.symm hc), ih hcs]

theorem pieces_intercalate {sep : Char} {ps : List (List Char)} (hne : ps ≠ []) (h : ∀ p ∈ ps, sep ∉ p) :
    pieces sep ([sep].intercalate ps) = ps := by
  induction ps with
  | nil => exact absurd rfl hne
  | cons p ps ih =>
    have hp : sep ∉ p := h p List.mem_cons_self
    cases ps with
    | nil => rw [List.intercalate_singleton, pieces_of_no_sep hp]
    | cons q qs =>
      have hrest := ih (List.cons_ne_nil q qs) fun r hr => h r (List.mem_cons_of_mem p hr)
      rw [List.intercalate_cons_cons, List.append_assoc, List.singleton_append, pieces_append_sep hp, hrest]

theorem not_mem_of_mem_pieces {sep : Char} {p cs : List Char} (h : p ∈ pieces sep cs) : sep ∉ p := by
  induction cs generalizing p with
  | nil =>
    rw [List.mem_singleton.1 h]
    exact List.not_mem_nil
  | cons c cs ih =>
    obtain ⟨q, qs, hq⟩ := List.exists_cons_of_ne_nil (pieces_ne_nil sep cs)
    by_cases hc : c = sep
    · rw [pieces, if_pos hc] at h
      rcases List.mem_cons.1 h with rfl | h
      · exact List.not_mem_nil
      · exact ih h
    · simp only [pieces, if_neg hc, hq] at h
      rw [hq] at ih
      rcases List.mem_cons.1 h with rfl | h
      · exact List.not_mem_cons_of_ne_of_not_mem (Ne.symm hc) (ih List.mem_cons_self)
      · exact ih (List.mem_cons_of_mem q h)

/-! ## Trimming -/

/-- a text of blanks only, the empty one included -/
def Blank (cs : List Char) : Prop := ∀ c ∈ cs, isBlank c = true

theorem dropBlanks_append {b : List Char} (hb : Blank b) (cs : List Char) : dropBlanks (b ++ cs) = dropBlanks cs :=
  List.dropWhile_append_of_pos hb

theorem dropTrailingBlanks_append {b : List Char} (hb : Blank b) (cs : List Char) :
    dropTrailingBlanks (cs ++ b) = dropTrailingBlanks cs := by
  have hreverse : Blank b.reverse := fun c hc => hb c (List.mem_reverse.1 hc)
  rw [dropTrailingBlanks, List.reverse_append, dropBlanks_append hreverse, dropTrailingBlanks]

theorem trimChars_blank {b : List Char} (hb : Blank b) : trimChars b = [] := by
  rw [trimChars, ← List.append_nil b, dropBlanks_append hb]
  rfl

/-- the blanks in front, what trimming leaves, and the blanks behind -/
theorem exists_padding (cs : List Char) : ∃ front back, Blank front ∧ Blank back ∧ cs = front ++ trimChars cs ++ back := by
  have hfront : Blank (cs.takeWhile isBlank) := fun c hc => List.mem_takeWhile_imp hc
  have hback : Blank ((dropBlanks cs).reverse.takeWhile isBlank).reverse := fun c hc =>
    List.mem_takeWhile_imp (List.mem_reverse.1 hc)
  refine ⟨_, _, hfront, hback, ?_⟩
  have htrim : trimChars cs ++ ((dropBlanks cs).reverse.takeWhile isBlank).reverse = dropBlanks cs := by
    rw [trimChars, dropTrailingBlanks, dropBlanks, ← List.reverse_append, List.takeWhile_append_dropWhile,
      List.reverse_reverse]
  rw [List.append_assoc, htrim]
  exact List.takeWhile_append_dropWhile.symm

theorem mem_of_mem_trimChars {c : Char} {cs : List Char} (h : c ∈ trimChars cs) : c ∈ cs := by
  obtain ⟨front, back, -, -, hcs⟩ := exists_padding cs
  rw [hcs]
  exact List.mem_append_left back (List.mem_append_right front h)

/-- trimming leaves nothing, or a text without blanks at its ends -/
theorem isBlank_ends_trimChars (cs : List Char) :
    (∀ c ∈ (trimChars cs).head?, isBlank c = false) ∧ ∀ c ∈ (trimChars cs).getLast?, isBlank c = false := by
  have hfirst : ∀ (ds : List Char), ∀ c ∈ (dropBlanks ds).head?, isBlank c = false := by
    intro ds c hc
    have hnot := List.head?_dropWhile_not isBlank ds
    rw [show (ds.dropWhile isBlank).head? = some c from hc] at hnot
    exact hnot
  have hprefix : trimChars cs <+: dropBlanks cs := by
    rw [trimChars, dropTrailingBlanks, ← List.reverse_suffix, List.reverse_reverse]
    exact List.dropWhile_suffix isBlank
  refine ⟨fun c hc => hfirst cs c ?_, fun c hc => hfirst (dropBlanks cs).reverse c ?_⟩
  · obtain ⟨rest, hrest⟩ := hprefix
    rw [← hrest, List.head?_append, hc]
    rfl
  · rwa [trimChars, dropTrailingBlanks, List.getLast?_reverse] at hc

namespace CommaList

theorem isEntry_trimChars {p : List Char} (hcomma : ',' ∉ p) (hne : trimChars p ≠ []) : IsEntry (trimChars p) :=
  ⟨hne, fun h => hcomma (mem_of_mem_trimChars h), (isBlank_ends_trimChars p).1, (isBlank_ends_trimChars p).2⟩

theorem trimChars_padded {front x back : List Char} (hfront : Blank front) (hback : Blank back) (hx : IsEntry x) :
    trimChars (front ++ x ++ back) = x := by
  have hhead : ∀ c ∈ (x ++ back).head?, isBlank c = false := by
    obtain ⟨first, others, rfl⟩ := List.exists_cons_of_ne_nil hx.ne_nil
    exact hx.front
  calc trimChars (front ++ x ++ back) = dropTrailingBlanks (dropBlanks (x ++ back)) := by
        rw [trimChars, List.append_assoc, dropBlanks_append hfront]
    _ = dropTrailingBlanks x := by rw [dropBlanks_eq_self hhead, dropTrailingBlanks_append hback]
    _ = trimChars x := by rw [trimChars, dropBlanks_eq_self hx.front]
    _ = x := trimChars_eq_self hx.front hx.back

/-! ## Spelling -/

/-- pieces that hold the entries of a list in order, one each with blanks around it, and blanks only in the others -/
inductive Hold : List (List Char) → List (List Char) → Prop
  | nil : Hold [] []
  | blank {b : List Char} {ps xs : List (List Char)} (hb : Blank b) (rest : Hold ps xs) : Hold (b :: ps) xs
  | entry {front back : List Char} {ps xs : List (List Char)} (x : List Char) (hfront : Blank front)
      (hback : Blank back) (rest : Hold ps xs) : Hold ((front ++ x ++ back) :: ps) (x :: xs)

/-- the text joins pieces that hold the list -/
def Spells (s : String) (xs : List String) : Prop :=
  ∃ ps, Hold ps (xs.map String.toList) ∧ s.toList = [','].intercalate ps

variable {ps xs : List (List Char)}

theorem comma_not_mem_of_blank {b : List Char} (hb : Blank b) : ',' ∉ b := fun h => by
  have hcomma : isBlank ',' = true := hb ',' h
  cases hcomma

theorem Hold.no_comma (h : Hold ps xs) (hx : ∀ x ∈ xs, IsEntry x) : ∀ p ∈ ps, ',' ∉ p := by
  induction h with
  | nil => exact fun p hp => absurd hp List.not_mem_nil
  | blank hb rest ih =>
    exact List.forall_mem_cons.2 ⟨comma_not_mem_of_blank hb, ih hx⟩
  | entry x hfront hback rest ih =>
    obtain ⟨hfirst, hothers⟩ := List.forall_mem_cons.1 hx
    refine List.forall_mem_cons.2 ⟨fun hmem => ?_, ih hothers⟩
    rcases List.mem_append.1 hmem with hmem | hmem
    · rcases List.mem_append.1 hmem with hmem | hmem
      · exact comma_not_mem_of_blank hfront hmem
      · exact hfirst.no_comma hmem
    · exact comma_not_mem_of_blank hback hmem

/-- the pieces trimmed, without those that were blank -/
def kept (ps : List (List Char)) : List (List Char) := (ps.map trimChars).filter fun p => !p.isEmpty

theorem entriesChars_eq_kept (cs : List Char) : entriesChars cs = kept (pieces ',' cs) := rfl

theorem Hold.kept_eq (h : Hold ps xs) (hx : ∀ x ∈ xs, IsEntry x) : kept ps = xs := by
  induction h with
  | nil => rfl
  | blank hb rest ih =>
    rw [kept, List.map_cons, trimChars_blank hb, List.filter_cons_of_neg (by simp)]
    exact ih hx
  | entry x hfront hback rest ih =>
    obtain ⟨hfirst, hothers⟩ := List.forall_mem_cons.1 hx
    rw [kept, List.map_cons, trimChars_padded hfront hback hfirst, List.filter_cons_of_pos (by simpa using hfirst.ne_nil)]
    exact congrArg (x :: ·) (ih hothers)

theorem hold_kept (ps : List (List Char)) : Hold ps (kept ps) := by
  induction ps with
  | nil => exact .nil
  | cons p ps ih =>
    obtain ⟨front, back, hfront, hback, hp⟩ := exists_padding p
    by_cases hblank : trimChars p = []
    · have hb : Blank p := by
        rw [hp, hblank, List.append_nil]
        exact fun c hc => (List.mem_append.1 hc).elim (hfront c) (hback c)
      rw [kept, List.map_cons, hblank, List.filter_cons_of_neg (by simp)]
      exact .blank hb ih
    · rw [kept, List.map_cons, List.filter_cons_of_pos (by simpa using hblank)]
      have hentry := Hold.entry (trimChars p) hfront hback ih
      rwa [← hp] at hentry

theorem isEntry_of_mem_entriesChars {x cs : List Char} (h : x ∈ entriesChars cs) : IsEntry x := by
  obtain ⟨hmem, hne⟩ := List.mem_filter.1 h
  obtain ⟨p, hp, rfl⟩ := List.mem_map.1 hmem
  exact isEntry_trimChars (not_mem_of_mem_pieces hp) (by simpa using hne)

theorem entriesChars_eq_iff (cs : List Char) (xs : List (List Char)) :
    entriesChars cs = xs ↔ (∀ x ∈ xs, IsEntry x) ∧ ∃ ps, Hold ps xs ∧ cs = [','].intercalate ps := by
  constructor
  · rintro rfl
    refine ⟨fun x hx => isEntry_of_mem_entriesChars hx, pieces ',' cs, ?_, (intercalate_pieces ',' cs).symm⟩
    rw [entriesChars_eq_kept]
    exact hold_kept (pieces ',' cs)
  · rintro ⟨hx, ps, hps, rfl⟩
    cases ps with
    | nil =>
      cases hps
      rfl
    | cons p ps =>
      rw [entriesChars_eq_kept, pieces_intercalate (List.cons_ne_nil p ps) (hps.no_comma hx)]
      exact hps.kept_eq hx

/-- **A text is read as the list that it spells.** What is read is never empty, holds no comma and has no blanks at its
ends. A text that joins such entries with commas is read as just these, with any blanks around them and any blank pieces
between them. -/
theorem entries_eq_iff (s : String) (xs : List String) :
    entries s = xs ↔ (∀ x ∈ xs, IsEntry x.toList) ∧ Spells s xs := by
  have hchars : entries s = xs ↔ entriesChars s.toList = xs.map String.toList := by
    rw [entries]
    constructor
    · rintro rfl
      simp
    · intro h
      simp [h]
  rw [hchars, entriesChars_eq_iff, List.forall_mem_map]
  rfl

example : entries "a, b,,c " = ["a", "b", "c"] := by decide

end CommaList

end TestTrail.Text
