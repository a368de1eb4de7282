/-
Arguments as typed on a command line.

A value in square brackets is a comma list whose entries are read in turn. Anything else is the first of these that it
is: one of the words for nothing and the truth values, a whole number of 64 bits, a floating point number, a text. An
argument is a name and a value around the first equals sign; blanks around the name do not count.
-/
import TestTrail.Argument
import TestTrail.Decimal.Reading
import TestTrail.Text.CommaList

namespace TestTrail

open TestTrail.Text TestTrail.Decimal

namespace Value

/-- what stands between square brackets at both ends -/
def bracketed? (cs : List Char) : Option (List Char) :=
  match cs with
  | '[' :: rest => if rest.getLast? = some ']' then some rest.dropLast else none
  | _ => none

def ofScalarChars (cs : List Char) : Value :=
  let s := String.ofList cs
  if s = "null" then null
  else if s = "true" then bool true
  else if s = "false" then bool false
  else match signedChars? cs with
    | some i => int i
    | none => match Binary64.readChars? cs with
      | some x => float x
      | none => text s

/-- reads a value with at most `depth` brackets inside one another; every entry is shorter than its list -/
def ofCharsWithin : Nat → List Char → Value
  | 0, cs => ofScalarChars cs
  | depth + 1, cs =>
    match bracketed? cs with
    | some inner => list ((CommaList.entriesChars inner).map (ofCharsWithin depth))
    | none => ofScalarChars cs

def ofChars (cs : List Char) : Value := ofCharsWithin cs.length cs

def ofText (s : String) : Value := ofChars s.toList

end Value

/-- the argument written by a text, if it has an equals sign -/
def Arg.ofText? (raw : String) : Option Arg :=
  let cs := raw.toList
  let name := cs.takeWhile (· != '=')
  match cs.drop name.length with
  | [] => none
  | _ :: value => some ⟨String.ofList (trimChars name), Value.ofChars value⟩

/-- the complaint about a text that is no argument -/
def Arg.complaint (raw : String) : String := "Invalid argument '" ++ raw ++ "'. Use name=value"

end TestTrail
