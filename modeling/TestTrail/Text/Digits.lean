/-
Whole numbers in decimal text.

`natural?` reads a non-empty run of ASCII digits. `unsigned?` also takes a leading plus sign and a bound, `signed?` either
sign and the range of 64 bits. Nothing else is skipped: no blanks, no underscores, no other base.
-/

namespace TestTrail.Text

def isDigit (c : Char) : Bool := '0' ≤ c && c ≤ '9'

def digitValue (c : Char) : Nat := c.toNat - 48

/-- the number that a run of digits writes -/
def digitsValue (cs : List Char) : Nat := cs.foldl (fun n c => 10 * n + digitValue c) 0

def naturalChars? (cs : List Char) : Option Nat :=
  if cs.isEmpty || !cs.all isDigit then none else some (digitsValue cs)

/-- a number below `bound`, with an optional plus sign -/
def unsigned? (bound : Nat) (s : String) : Option Nat :=
  let digits := match s.toList with
    | '+' :: cs => cs
    | cs => cs
  (naturalChars? digits).filter (· < bound)

/-- a number of 64 bits with an optional sign -/
def signedChars? (cs : List Char) : Option Int64 :=
  let value := match cs with
    | '-' :: ds => (naturalChars? ds).map fun n => -(n : Int)
    | '+' :: ds => (naturalChars? ds).map fun n => (n : Int)
    | ds => (naturalChars? ds).map fun n => (n : Int)
  (value.filter fun i => decide (-9223372036854775808 ≤ i ∧ i < 9223372036854775808)).map Int64.ofInt

def signed? (s : String) : Option Int64 := signedChars? s.toList

/-- the digits of a number, at least `width` of them -/
def padded (width n : Nat) : String :=
  let digits := toString n
  "".pushn '0' (width - digits.length) ++ digits

end TestTrail.Text
