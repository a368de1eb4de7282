/-
Small tables keyed by a name, in order of first use.

`set` replaces the value of a known name where it stands and adds a new name at the end; `erase` forgets a name. The laws
say what `get?` sees after each of them.
-/

namespace TestTrail

/-- a table from names to values -/
abbrev Keyed (α : Type) := List (String × α)

namespace Keyed

variable {α : Type}

def get? (t : Keyed α) (name : String) : Option α :=
  match t with
  | [] => none
  | (n, v) :: rest => if n = name then some v else get? rest name

def set (t : Keyed α) (name : String) (value : α) : Keyed α :=
  match t with
  | [] => [(name, value)]
  | (n, v) :: rest => if n = name then (n, value) :: rest else (n, v) :: set rest name value

def erase (t : Keyed α) (name : String) : Keyed α := t.filter fun e => e.1 != name

theorem get?_set (t : Keyed α) (name other : String) (value : α) :
    get? (set t name value) other = if name = other then some value else get? t other := by
  induction t with
  | nil => simp [set, get?]
  | cons e t ih =>
    obtain ⟨n, v⟩ := e
    by_cases hn : n = name
    · subst hn
      by_cases ho : n = other <;> simp [set, get?, ho]
    · by_cases ho : n = other
      · subst ho
        have : ¬ name = n := fun h => hn h.symm
        simp [set, get?, hn, this]
      · simp [set, get?, hn, ho, ih]

theorem get?_erase (t : Keyed α) (name other : String) :
    get? (erase t name) other = if name = other then none else get? t other := by
  induction t with
  | nil => simp [erase, get?]
  | cons e t ih =>
    obtain ⟨n, v⟩ := e
    have ih' : get? (List.filter (fun e => e.1 != name) t) other = if name = other then none else get? t other := ih
    by_cases hn : n = name
    · subst hn
      by_cases ho : n = other
      · subst ho; simp [erase, ih']
      · simp [erase, get?, ih', ho]
    · by_cases ho : n = other
      · subst ho
        have : ¬ name = n := fun h => hn h.symm
        simp [erase, get?, hn, this]
      · simp [erase, get?, hn, ho, ih']

end Keyed

end TestTrail
