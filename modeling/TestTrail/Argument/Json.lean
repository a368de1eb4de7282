/-
Arguments in JSON.

A value is the JSON value of its kind. A whole number of more than 64 bits is read as a floating point number; an object
is no value. A floating point number that is not finite has no JSON form and is written as null.
-/
import TestTrail.Argument
import TestTrail.Json.Fields

namespace TestTrail

open TestTrail.Decimal

namespace Value

mutual

def toJson : Value → Json
  | null => .null
  | bool b => .bool b
  | int i => .int i.toInt
  | float x => if x.isFinite then .float x else .null
  | text s => .str s
  | list items => .arr (toJsonItems items)

def toJsonItems : List Value → List Json
  | [] => []
  | v :: vs => v.toJson :: toJsonItems vs

end

mutual

/-- the value together with its kind; floating point numbers as text -/
def shapeJson : Value → Json
  | null => .str "null"
  | bool b => .obj [("bool", .bool b)]
  | int i => .obj [("int", .int i.toInt)]
  | float x => .obj [("float", .str x.display)]
  | text s => .obj [("str", .str s)]
  | list items => .obj [("list", .arr (shapeJsonItems items))]

def shapeJsonItems : List Value → List Json
  | [] => []
  | v :: vs => v.shapeJson :: shapeJsonItems vs

end

/-- a whole number: exact where it fits, else the nearest floating point number -/
def ofWhole (i : Int) : Value :=
  match Json.toInt64? (.int i) with
  | some i => int i
  | none => float (Binary64.ofInt i)

mutual

def ofJson? : Json → Option Value
  | .null => some null
  | .bool b => some (bool b)
  | .int i => some (ofWhole i)
  | .float x => some (float x)
  | .str s => some (text s)
  | .arr items => (ofJsonItems? items).map list
  | .obj _ => none
  | .unreadable => none

def ofJsonItems? : List Json → Option (List Value)
  | [] => some []
  | j :: js =>
    match ofJson? j, ofJsonItems? js with
    | some v, some vs => some (v :: vs)
    | _, _ => none

end

end Value

namespace Arg

def toJson (a : Arg) : Json := .obj [("name", .str a.name), ("value", a.value.toJson)]

def ofJson? (j : Json) : Option Arg :=
  match Json.fields? ["name", "value"] j with
  | some [name, value] => do
    let name ← Json.required name Json.toString?
    let value ← Json.required value Value.ofJson?
    some ⟨name, value⟩
  | _ => none

end Arg

end TestTrail
