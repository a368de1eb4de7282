/-
Arguments of calls.

A value is nothing, a truth value, a whole number of 64 bits, a floating point number, a text, or a list of values.
`display` is its bare text: every list item is followed by a comma. `render` is the form in default names, where a text
at the top is quoted. `secrets` are the texts to hide when the argument is masked: those of all scalars in it, except
nothing and the empty text.
-/
import TestTrail.Decimal.Notation

namespace TestTrail

open TestTrail.Decimal

inductive Value where
  | null
  | bool (b : Bool)
  | int (i : Int64)
  | float (x : Binary64)
  | text (s : String)
  | list (items : List Value)
  deriving BEq, Repr

namespace Value

mutual

def display : Value → String
  | null => "null"
  | bool b => if b then "true" else "false"
  | int i => toString i.toInt
  | float x => x.display
  | text s => s
  | list items => "[" ++ displayItems items ++ "]"

def displayItems : List Value → String
  | [] => ""
  | v :: vs => v.display ++ "," ++ displayItems vs

end

def render : Value → String
  | text s => "\"" ++ s ++ "\""
  | v => v.display

mutual

def secrets : Value → List String
  | null => []
  | text s => if s = "" then [] else [s]
  | list items => secretsOfItems items
  | v => [v.display]

def secretsOfItems : List Value → List String
  | [] => []
  | v :: vs => v.secrets ++ secretsOfItems vs

end

end Value

/-- a named argument -/
structure Arg where
  name : String
  value : Value
  deriving BEq, Repr

/-- the arguments in parentheses, or nothing when there are none -/
def argString (args : List Arg) : String :=
  if args.isEmpty then "" else "with args: (" ++ ", ".intercalate (args.map fun a => a.value.render) ++ ")"

end TestTrail
