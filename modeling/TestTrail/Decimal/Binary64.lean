/-
Floating point numbers of 64 bits, as bit patterns.

A number is its 64 bits, so equality is equality of bits and everything about it is exact arithmetic on natural numbers.
`parts` splits a finite number into a significand and a power of two. `ofRatio` is the nearest number to a quotient, with
ties to the even significand and infinity above the range; sums, products, quotients and readers are all built on it.
-/

namespace TestTrail.Decimal

structure Binary64 where
  bits : UInt64
  deriving DecidableEq, Repr, Inhabited

namespace Binary64

def signBit : Nat := 0x8000000000000000

/-- the bits of infinity: every pattern of a finite magnitude is below it -/
def infinityBits : Nat := 0x7ff0000000000000

/-- how many magnitudes have the same exponent: two to the power of 52 -/
def binade : Nat := 0x10000000000000

def ofBits (negative : Bool) (magnitude : Nat) : Binary64 :=
  ⟨UInt64.ofNat (if negative then signBit + magnitude else magnitude)⟩

def negative (x : Binary64) : Bool := decide (signBit ≤ x.bits.toNat)

/-- the bits without the sign -/
def magnitude (x : Binary64) : Nat := x.bits.toNat % signBit

def isNaN (x : Binary64) : Bool := decide (infinityBits < x.magnitude)

def isInfinite (x : Binary64) : Bool := x.magnitude == infinityBits

def isFinite (x : Binary64) : Bool := decide (x.magnitude < infinityBits)

def isZero (x : Binary64) : Bool := x.magnitude == 0

/-- significand and exponent of two of a finite magnitude -/
def parts (x : Binary64) : Nat × Int :=
  let field : Nat := x.magnitude / binade
  let fraction : Nat := x.magnitude % binade
  if field = 0 then (fraction, -1074) else (fraction + binade, (field : Int) - 1075)

/-- a finite magnitude as a quotient of natural numbers -/
def ratio (x : Binary64) : Nat × Nat :=
  match x.parts with
  | (m, .ofNat e) => (m * Nat.pow 2 e, 1)
  | (m, .negSucc e) => (m, Nat.pow 2 (e + 1))

/-- the nearest natural number to a quotient, ties to the even one -/
def roundHalfEven (num den : Nat) : Nat :=
  let q := num / den
  let r := num % den
  if 2 * r > den || (2 * r == den && q % 2 == 1) then q + 1 else q

/-- the power of two that leaves a significand of 53 bits, or of fewer at the lower end of the range -/
def exponentFor (num den : Nat) : Int :=
  let guess : Int := (Nat.log2 num : Int) - (Nat.log2 den : Int) - 52
  let below : Bool := match guess with
    | .ofNat e => decide (num < binade * (den * Nat.pow 2 e))
    | .negSucc e => decide (num * Nat.pow 2 (e + 1) < binade * den)
  max (if below then guess - 1 else guess) (-1074)

/-- the bits of the magnitude nearest to a quotient -/
def magnitudeOfRatio (num den : Nat) : Nat :=
  if num = 0 then 0 else
    let e := exponentFor num den
    let q := match e with
      | .ofNat k => roundHalfEven num (den * Nat.pow 2 k)
      | .negSucc k => roundHalfEven (num * Nat.pow 2 (k + 1)) den
    min infinityBits ((e + 1074).toNat * binade + q)

def ofRatio (neg : Bool) (num den : Nat) : Binary64 := ofBits neg (magnitudeOfRatio num den)

def ofInt (i : Int) : Binary64 := ofRatio (decide (i < 0)) i.natAbs 1

/-- the sum of two finite numbers that are not negative -/
def addMagnitudes (x y : Binary64) : Binary64 :=
  ofRatio false (x.ratio.1 * y.ratio.2 + y.ratio.1 * x.ratio.2) (x.ratio.2 * y.ratio.2)

/-- the product of two finite numbers that are not negative -/
def times (x y : Binary64) : Binary64 := ofRatio false (x.ratio.1 * y.ratio.1) (x.ratio.2 * y.ratio.2)

/-- the quotient of two finite numbers that are not negative; the second is not zero -/
def dividedBy (x y : Binary64) : Binary64 := ofRatio false (x.ratio.1 * y.ratio.2) (x.ratio.2 * y.ratio.1)

/-- the number nearest to a power of ten -/
def powerOfTen (k : Nat) : Binary64 := ofRatio false (Nat.pow 10 k) 1

def infinity (neg : Bool) : Binary64 := ofBits neg infinityBits

def nan : Binary64 := ofBits false (infinityBits + binade / 2)

end Binary64

end TestTrail.Decimal
