/-
JSON values, the common form of plans, reports and messages.

Numbers are told apart as they are written: whole numbers of at most 64 bits are exact, all others are floating point
numbers. Objects keep their members in order, with repetitions. `unreadable` stands for text that is well formed and still
has no value: a string with a lone surrogate, an object with such a name, a number beyond every floating point number. It
does no harm where a reader skips it.

`fitsWithin` says that a value has nothing unreadable in it and that its arrays and objects are nested to a given depth at
most.
-/
import TestTrail.Decimal.Notation

namespace TestTrail

open TestTrail.Decimal

inductive Json where
  | null
  | bool (b : Bool)
  | int (i : Int)
  | float (x : Binary64)
  | str (s : String)
  | arr (items : List Json)
  | obj (members : List (String × Json))
  | unreadable
  deriving BEq, Repr, Inhabited

namespace Json

mutual

/-- how deep arrays and objects are nested -/
def depth : Json → Nat
  | arr items => depthItems items + 1
  | obj members => depthMembers members + 1
  | _ => 0

def depthItems : List Json → Nat
  | [] => 0
  | j :: rest => max j.depth (depthItems rest)

def depthMembers : List (String × Json) → Nat
  | [] => 0
  | (_, j) :: rest => max j.depth (depthMembers rest)

end

mutual

/-- nothing in the value is unreadable -/
def readable : Json → Bool
  | arr items => readableItems items
  | obj members => readableMembers members
  | unreadable => false
  | _ => true

def readableItems : List Json → Bool
  | [] => true
  | j :: rest => j.readable && readableItems rest

def readableMembers : List (String × Json) → Bool
  | [] => true
  | (_, j) :: rest => j.readable && readableMembers rest

end

/-- readable, and nested no deeper than `limit` -/
def fitsWithin (limit : Nat) (j : Json) : Bool := j.readable && decide (j.depth ≤ limit)

/-- the first member of this name -/
def member? (j : Json) (name : String) : Option Json :=
  match j with
  | obj members => (members.find? fun m => m.1 == name).map Prod.snd
  | _ => none

/-- a text or nothing -/
def ofOption (s : Option String) : Json := match s with
  | some s => str s
  | none => null

def strings (l : List String) : Json := arr (l.map str)

/-- a member that is left out when there is nothing to write -/
def present {α : Type} (name : String) (write : α → Json) : Option α → List (String × Json)
  | some a => [(name, write a)]
  | none => []

end Json

end TestTrail
