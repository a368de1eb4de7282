/-
Reading floating point numbers.

`ofDecimal` is the number nearest to some digits times a power of ten; exponents far outside the range are decided by
the number of digits alone, so no huge power is ever computed. `Binary64.read?` takes the free form of command lines: a
sign, digits with or without a point on either side, an exponent, or one of the words `inf`, `infinity` and `nan` in any
case. There must be a digit, and nothing else may follow.
-/
import TestTrail.Decimal.Binary64
import TestTrail.Text.Digits

namespace TestTrail.Decimal

open TestTrail.Text

/-- the number nearest to `value * 10 ^ exponent`, where `value` has `count` digits -/
def ofDecimal (neg : Bool) (value count : Nat) (exponent : Int) : Binary64 :=
  if value = 0 then Binary64.ofBits neg 0
  else if exponent + count > 400 then Binary64.infinity neg
  else if exponent + count < -400 then Binary64.ofBits neg 0
  else match exponent with
    | .ofNat k => Binary64.ofRatio neg (value * Nat.pow 10 k) 1
    | .negSucc k => Binary64.ofRatio neg value (Nat.pow 10 (k + 1))

/-- whole digits, digits behind the point and the exponent of ten as one number -/
def ofParts (neg : Bool) (whole fraction : List Char) (exponent : Int) : Binary64 :=
  let digits := (whole ++ fraction).dropWhile (· == '0')
  ofDecimal neg (digitsValue digits) digits.length (exponent - fraction.length)

/-- the exponent of ten behind the letter: a sign and at least one digit, up to the end -/
def exponent? (cs : List Char) : Option Int :=
  match cs with
  | '-' :: ds => (naturalChars? ds).map fun n => -(n : Int)
  | '+' :: ds => (naturalChars? ds).map fun n => (n : Int)
  | ds => (naturalChars? ds).map fun n => (n : Int)

namespace Binary64

/-- a number without sign in free form -/
def readMagnitude? (neg : Bool) (cs : List Char) : Option Binary64 :=
  let word := String.ofList (cs.map Char.toLower)
  if word = "inf" || word = "infinity" then some (infinity neg)
  else if word = "nan" then some nan
  else
    let whole := cs.takeWhile isDigit
    let rest := cs.dropWhile isDigit
    let (fraction, rest) := match rest with
      | '.' :: r => (r.takeWhile isDigit, r.dropWhile isDigit)
      | r => ([], r)
    if whole.isEmpty && fraction.isEmpty then none
    else match rest with
      | [] => some (ofParts neg whole fraction 0)
      | c :: r => if c == 'e' || c == 'E' then (exponent? r).map (ofParts neg whole fraction) else none

def readChars? (cs : List Char) : Option Binary64 :=
  match cs with
  | '-' :: r => readMagnitude? true r
  | '+' :: r => readMagnitude? false r
  | r => readMagnitude? false r

def read? (s : String) : Option Binary64 := readChars? s.toList

end Binary64

end TestTrail.Decimal
