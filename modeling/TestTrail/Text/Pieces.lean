/-
Cutting a text at a separator.

`pieces sep` are the parts between the separators, empty ones included. There is always one piece more than there are
separators, and joining the pieces with the separator gives the text back (`intercalate_pieces`). What stands before the
first separator is the first piece (`pieces_append_sep`).
-/

namespace TestTrail.Text

def pieces (sep : Char) : List Char → List (List Char)
  | [] => [[]]
  | c :: cs =>
    if c = sep then [] :: pieces sep cs
    else match pieces sep cs with
      | [] => [[c]]
      | p :: ps => (c :: p) :: ps

theorem pieces_ne_nil (sep : Char) (cs : List Char) : pieces sep cs ≠ [] := by
  cases cs with
  | nil => simp [pieces]
  | cons c cs =>
    simp only [pieces]
    split
    · simp
    · split <;> simp

/-- joining undoes the cut -/
theorem intercalate_pieces (sep : Char) (cs : List Char) : [sep].intercalate (pieces sep cs) = cs := by
  induction cs with
  | nil => rfl
  | cons c cs ih =>
    have hne := pieces_ne_nil sep cs
    match hp : pieces sep cs, hne with
    | p :: ps, _ =>
      rw [hp] at ih
      by_cases hc : c = sep
      · subst hc
        simp only [pieces, if_true, hp]
        rw [← ih]
        simp [List.intercalate]
      · simp only [pieces, if_neg hc, hp]
        rw [← ih]
        cases ps <;> simp [List.intercalate]

theorem pieces_append_sep {sep : Char} {p : List Char} (h : sep ∉ p) (rest : List Char) :
    pieces sep (p ++ sep :: rest) = p :: pieces sep rest := by
  induction p with
  | nil => simp [pieces]
  | cons c cs ih =>
    obtain ⟨hc, hcs⟩ := not_or.1 (mt List.mem_cons.2 h)
    rw [List.cons_append, pieces, if_neg (Ne.symm hc), ih hcs]

end TestTrail.Text
