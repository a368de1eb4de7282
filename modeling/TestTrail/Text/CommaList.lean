/-
Comma lists, the format of filters and of bracketed arguments.

`entries` cuts a text at its commas, trims every piece and drops the blank ones, so blanks around an entry and empty
entries do not matter while blanks inside an entry stay. An entry with a comma behind it is the first one of the list
(`entriesChars_append_comma`).
-/
import TestTrail.Text.Blank
import TestTrail.Text.Pieces

namespace TestTrail.Text.CommaList

/-- the trimmed pieces that are not blank -/
def entriesChars (cs : List Char) : List (List Char) :=
  ((pieces ',' cs).map trimChars).filter fun p => !p.isEmpty

def entries (s : String) : List String := (entriesChars s.toList).map String.ofList

/-- a text that can stand in a comma list as it is -/
structure IsEntry (cs : List Char) : Prop where
  ne_nil : cs ≠ []
  no_comma : ',' ∉ cs
  front : ∀ c ∈ cs.head?, isBlank c = false
  back : ∀ c ∈ cs.getLast?, isBlank c = false

theorem isEntry_of_no_blank {cs : List Char} (hne : cs ≠ []) (hcomma : ',' ∉ cs) (hblank : cs.any isBlank = false) :
    IsEntry cs := by
  have hall : ∀ c ∈ cs, isBlank c = false := fun c hc => Bool.eq_false_iff.2 (List.any_eq_false.1 hblank c hc)
  exact ⟨hne, hcomma, fun c hc => hall c (List.mem_of_mem_head? hc), fun c hc => hall c (List.mem_of_getLast? hc)⟩

theorem entriesChars_append_comma {p : List Char} (h : IsEntry p) (rest : List Char) :
    entriesChars (p ++ ',' :: rest) = p :: entriesChars rest := by
  rw [entriesChars, pieces_append_sep h.no_comma, List.map_cons, trimChars_eq_self h.front h.back,
    List.filter_cons_of_pos (by simpa using h.ne_nil)]
  rfl

end TestTrail.Text.CommaList
