/-
Places in trees, and what is there.

A place is the way down to a node: which child to take, one after the other. What a recursion over a tree says of the tree
can be said of its places: some node at or below another one has an exception (`hasException`) exactly if there is a place
where one stands.
-/
import Mathlib.Tactic.ByContra
import TestTrail.Tree

namespace TestTrail.Node

/-- the node below another one: which child to take, one after the other -/
def below? : Node → List Nat → Option Node
  | n, [] => some n
  | n, i :: place => n.children[i]?.bind fun m => m.below? place

/-- the node at a place of a forest -/
def at? (forest : List Node) : List Nat → Option Node
  | [] => none
  | i :: place => forest[i]?.bind fun n => n.below? place

theorem at?_append {forest : List Node} {place : List Nat} {n : Node} (h : at? forest place = some n) (more : List Node) :
    at? (forest ++ more) place = some n := by
  cases place with
  | nil => cases h
  | cons i place =>
    obtain ⟨child, hchild, hbelow⟩ := Option.bind_eq_some_iff.1 h
    have hi := (List.getElem?_eq_some_iff.1 hchild).1
    simp [at?, List.getElem?_append_left hi, hchild, hbelow]

theorem anyException_eq_any (ns : List Node) : anyException ns = ns.any hasException := by
  induction ns with
  | nil => rfl
  | cons n ns ih => rw [anyException, ih, List.any_cons]

theorem anyException_append (ns ms : List Node) : anyException (ns ++ ms) = (anyException ns || anyException ms) := by
  simp only [anyException_eq_any, List.any_append]

theorem hasException_eq (n : Node) : n.hasException = (n.exception.isSome || anyException n.children) := by
  cases n with
  | step h cs => rfl
  | action a => exact (Bool.or_false _).symm
  | message m => rfl

mutual

theorem exists_below_of_hasException (n : Node) (h : n.hasException = true) :
    ∃ place m, n.below? place = some m ∧ m.exception ≠ none := by
  cases n with
  | step head cs =>
    rw [hasException, Bool.or_eq_true] at h
    rcases h with hown | hchildren
    · exact ⟨[], _, rfl, Option.isSome_iff_ne_none.1 hown⟩
    · obtain ⟨place, m, hm, hsome⟩ := exists_at_of_anyException cs hchildren
      cases place with
      | nil => cases hm
      | cons i place => exact ⟨i :: place, m, hm, hsome⟩
  | action a => exact ⟨[], _, rfl, Option.isSome_iff_ne_none.1 h⟩
  | message m => cases h

theorem exists_at_of_anyException (ns : List Node) (h : anyException ns = true) :
    ∃ place m, at? ns place = some m ∧ m.exception ≠ none := by
  cases ns with
  | nil => cases h
  | cons n ns =>
    rw [anyException, Bool.or_eq_true] at h
    rcases h with hfirst | hrest
    · obtain ⟨place, m, hm, hsome⟩ := exists_below_of_hasException n hfirst
      exact ⟨0 :: place, m, hm, hsome⟩
    · obtain ⟨place, m, hm, hsome⟩ := exists_at_of_anyException ns hrest
      cases place with
      | nil => cases hm
      | cons i place => exact ⟨(i + 1) :: place, m, hm, hsome⟩

end

theorem hasException_of_below {n m : Node} {place : List Nat} (hm : n.below? place = some m) (he : m.exception ≠ none) :
    n.hasException = true := by
  induction place generalizing n with
  | nil =>
    obtain rfl : n = m := Option.some.inj hm
    rw [hasException_eq, Option.isSome_iff_ne_none.2 he, Bool.true_or]
  | cons i place ih =>
    obtain ⟨child, hchild, hbelow⟩ := Option.bind_eq_some_iff.1 hm
    have hany : anyException n.children = true := by
      rw [anyException_eq_any]
      exact List.any_eq_true.2 ⟨child, List.mem_of_getElem? hchild, ih hbelow⟩
    rw [hasException_eq, hany, Bool.or_true]

/-- no exception is found in a forest exactly if there is none at any place -/
theorem anyException_eq_false_iff (ns : List Node) :
    anyException ns = false ↔ ∀ place m, at? ns place = some m → m.exception = none := by
  constructor
  · intro hnone place m hm
    by_contra he
    cases place with
    | nil => cases hm
    | cons i place =>
      obtain ⟨child, hchild, hbelow⟩ := Option.bind_eq_some_iff.1 hm
      rw [anyException_eq_any, List.any_eq_false] at hnone
      exact hnone child (List.mem_of_getElem? hchild) (hasException_of_below hbelow he)
  · intro hnone
    by_contra hany
    obtain ⟨place, m, hm, he⟩ := exists_at_of_anyException ns ((Bool.not_eq_false _).mp hany)
    exact he (hnone place m hm)

end TestTrail.Node
