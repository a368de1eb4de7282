/-
Floating point numbers as text.

All notations write the shortest digits that read back. `display` is the form of argument values: positional with at
least one place behind the point, and with an exponent from 10^16 on and below 10^-4. `plain` never has an exponent and
writes no point for a whole number; in both an exact tie between digits goes up. `json` is `display` with ties to the even
digit. Infinities are `inf` and `-inf`, everything that is no number is `NaN`, and a zero keeps its sign.
-/
import TestTrail.Decimal.Shortest

namespace TestTrail.Decimal

/-- digits in positional form; `wholeTail` follows when no place is left behind the point -/
def positional (d : Digits) (wholeTail : String) : String :=
  let text := (toString d.value).toList
  match d.exponent with
  | .ofNat k => String.ofList (text ++ List.replicate k '0') ++ wholeTail
  | .negSucc k =>
    let places := k + 1
    let padded := List.replicate (places + 1 - text.length) '0' ++ text
    let whole := padded.length - places
    String.ofList (padded.take whole) ++ "." ++ String.ofList (padded.drop whole)

/-- one digit, the point and the rest, and the exponent of the first digit -/
def scientific (d : Digits) : String :=
  match (toString d.value).toList with
  | [] => "0e0"
  | first :: rest =>
    let exponent := d.exponent + rest.length
    let tail := if rest.isEmpty then "" else "." ++ String.ofList rest
    String.ofList [first] ++ tail ++ "e" ++ toString exponent

namespace Binary64

def signText (x : Binary64) : String := if x.negative then "-" else ""

/-- the exponent of the first digit -/
def firstExponent (d : Digits) : Int := d.exponent + ((toString d.value).length : Int) - 1

/-- the form with a point or an exponent -/
def pointed (tie : Tie) (x : Binary64) : String :=
  if x.isNaN then "NaN"
  else if x.isInfinite then x.signText ++ "inf"
  else if x.isZero then x.signText ++ "0.0"
  else
    let d := shortest tie x
    let first := firstExponent d
    x.signText ++ (if first ≥ 16 || first < -4 then scientific d else positional d ".0")

/-- the form of argument values -/
def display (x : Binary64) : String := x.pointed .up

/-- the form of finite numbers in JSON -/
def json (x : Binary64) : String := x.pointed .even

/-- the form without exponent and without needless point -/
def plain (x : Binary64) : String :=
  if x.isNaN then "NaN"
  else if x.isInfinite then x.signText ++ "inf"
  else if x.isZero then x.signText ++ "0"
  else x.signText ++ positional (shortest .up x) ""

end Binary64

end TestTrail.Decimal
