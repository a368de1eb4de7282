/-
Numbers in JSON text.

A whole number of at most 64 bits is exact. Every other number is read in one pass that never looks back: as many digits as
64 bits hold make a whole number, which is rounded to floating point and then multiplied with or divided by a power of ten,
each step with its own rounding. Of the digits that no longer fit, those in front of the point count as zeros and those
behind it as nothing. The result is often, but not always, the number nearest to the text. A result above the range is no
number; below it everything is zero.
-/
import TestTrail.Decimal.Binary64
import TestTrail.Json
import TestTrail.Text.Digits
import TestTrail.Word

namespace TestTrail.Json

open TestTrail.Text TestTrail.Decimal

/-- goes on with the digits in front of the point; the second number counts those that do not fit -/
def wholeDigits (n : Nat) : List Char → Nat × Nat
  | [] => (n, 0)
  | c :: cs =>
    let m := 10 * n + digitValue c
    if m < Word.limit64 then wholeDigits m cs else (n, cs.length + 1)

/-- goes on with the digits behind the point; the second number counts those that fit -/
def fractionDigits (n places : Nat) : List Char → Nat × Nat
  | [] => (n, places)
  | c :: cs =>
    let m := 10 * n + digitValue c
    if m < Word.limit64 then fractionDigits m (places + 1) cs else (n, places)

/-- the greatest power of ten that is taken in one step -/
def stepLimit : Nat := 308

/-- `x * 10 ^ exponent` for a magnitude, in steps; two steps down leave nothing of any whole number of 64 bits -/
def scaled? (x : Binary64) (exponent : Int) : Nat → Option Binary64
  | 0 => some (Binary64.ofBits false 0)
  | steps + 1 =>
    if exponent.natAbs ≤ stepLimit then
      let power := Binary64.powerOfTen exponent.natAbs
      let y := if 0 ≤ exponent then x.times power else x.dividedBy power
      if y.isFinite then some y else none
    else if x.isZero then some x
    else if 0 ≤ exponent then none
    else scaled? (x.dividedBy (Binary64.powerOfTen stepLimit)) (exponent + stepLimit) steps

/-- the floating point number `n * 10 ^ exponent` -/
def ofScaled (negative : Bool) (n : Nat) (exponent : Int) : Json :=
  match scaled? (Binary64.ofRatio false n 1) exponent 4 with
  | some x => float (Binary64.ofBits negative x.magnitude)
  | none => unreadable

/-- the value of a number written without point and exponent -/
def ofWhole (negative : Bool) (digits : List Char) : Json :=
  match wholeDigits 0 digits with
  | (n, 0) =>
    if negative then
      if n = 0 || Word.limit63 < n then ofScaled true n 0 else int (-(n : Int))
    else int n
  | (n, dropped) => ofScaled negative n dropped

/-- the value of a number from its digits in front of the point, behind it, and its exponent -/
def ofDecimalParts (negative : Bool) (whole fraction : List Char) (exponent : Int) : Json :=
  let (n, dropped) := wholeDigits 0 whole
  let (n, places) := fractionDigits n 0 fraction
  ofScaled negative n (exponent + dropped - places)

end TestTrail.Json
