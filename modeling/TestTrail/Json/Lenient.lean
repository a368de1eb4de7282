/-
Reading JSON leniently: a member that is absent, null or of another kind takes a default.
-/
import TestTrail.Json.Fields

namespace TestTrail.Json

/-- the value of a member, null when there is none -/
def valueAt (j : Json) (name : String) : Json := (j.member? name).getD null

def textAt? (j : Json) (name : String) : Option String := (j.valueAt name).toString?

def textAt (j : Json) (name : String) : String := (j.textAt? name).getD ""

def flagAt (j : Json) (name : String) (default : Bool) : Bool := ((j.valueAt name).toBool?).getD default

def natAt? (j : Json) (name : String) : Option Nat := (j.valueAt name).toNat?

def natAt (j : Json) (name : String) : Nat := (j.natAt? name).getD 0

def itemsAt (j : Json) (name : String) : List Json :=
  match j.valueAt name with
  | arr items => items
  | _ => []

def textsAt (j : Json) (name : String) : List String := (j.itemsAt name).filterMap toString?

def membersAt (j : Json) (name : String) : List (String × Json) :=
  match j.valueAt name with
  | obj members => members
  | _ => []

/-- a member read by the rules of its type, unless it is absent or null -/
def readAt? {α : Type} (j : Json) (name : String) (read : Json → Option α) (default : α) : Option α :=
  match j.valueAt name with
  | null => some default
  | v => read v

/-- a member that may be missing, read by the rules of its type -/
def optionAt? {α : Type} (j : Json) (name : String) (read : Json → Option α) : Option (Option α) :=
  j.readAt? name (fun v => (read v).map some) none

mutual

/-- the value without the members of these names, at any depth -/
def without (names : List String) : Json → Json
  | arr items => arr (withoutItems names items)
  | obj members => obj (withoutMembers names members)
  | j => j

def withoutItems (names : List String) : List Json → List Json
  | [] => []
  | j :: rest => j.without names :: withoutItems names rest

def withoutMembers (names : List String) : List (String × Json) → List (String × Json)
  | [] => []
  | (name, j) :: rest =>
    if names.contains name then withoutMembers names rest else (name, j.without names) :: withoutMembers names rest

end

end TestTrail.Json
