/-
The fewest decimal digits that read back.

The reals nearest to a finite number form an interval; its ends belong to it when the significand is even. For one digit,
two digits and so on, `shortest` looks at the two neighbours of the number on that decimal grid: the first grid with a
neighbour in the interval wins, of two neighbours the nearer. Where an exact tie goes, up or to the even digit, is for the
notation to say. Seventeen digits always suffice.
-/
import TestTrail.Decimal.Binary64

namespace TestTrail.Decimal

/-- digits as a natural number, times a power of ten -/
structure Digits where
  value : Nat
  exponent : Int
  deriving DecidableEq, Repr

/-- which of two neighbours at the same distance is taken -/
inductive Tie where
  | up
  | even
  deriving DecidableEq, Repr

namespace Shortest

/-- a finite positive number and the ends of its interval, over one denominator -/
structure Interval where
  low : Nat
  mid : Nat
  high : Nat
  den : Nat
  closed : Bool

def scaleBy (base : Nat) (e : Int) (num den : Nat) : Nat × Nat :=
  match e with
  | .ofNat k => (num * Nat.pow base k, den)
  | .negSucc k => (num, den * Nat.pow base (k + 1))

/-- the reals that round to the number; below a power of two the lower gap is half as wide -/
def interval (x : Binary64) : Interval :=
  let (m, e) := x.parts
  let lowGap := if m = Binary64.binade && e > -1074 then 1 else 2
  let (scale, den) := scaleBy 2 (e - 2) 1 1
  { low := (4 * m - lowGap) * scale, mid := 4 * m * scale, high := (4 * m + 2) * scale, den := den, closed := m % 2 == 0 }

def Interval.contains (i : Interval) (num den : Nat) : Bool :=
  if i.closed then decide (i.low * den ≤ num * i.den) && decide (num * i.den ≤ i.high * den)
  else decide (i.low * den < num * i.den) && decide (num * i.den < i.high * den)

/-- the better neighbour of the number among the multiples of a power of ten, if one is in the interval -/
def neighbour? (tie : Tie) (i : Interval) (grid : Int) : Option Digits :=
  let (unit, under) := scaleBy 10 grid 1 1
  let below := i.mid * under / (i.den * unit)
  let lowIn := decide (0 < below) && i.contains (below * unit) under
  let highIn := i.contains ((below + 1) * unit) under
  let twice := 2 * (i.mid * under)
  let middle := (2 * below + 1) * (i.den * unit)
  let nearLow := decide (twice < middle) || (tie == .even && below % 2 == 0 && twice == middle)
  if lowIn && (nearLow || !highIn) then some ⟨below, grid⟩
  else if highIn then some ⟨below + 1, grid⟩
  else none

/-- the exponent of the first decimal digit of a positive quotient, found from an estimate below it -/
def leadingExponent (num den : Nat) : Nat → Int → Int
  | 0, guess => guess
  | fuel + 1, guess =>
    let (n, d) := scaleBy 10 (-(guess + 1)) num den
    if d ≤ n then leadingExponent num den fuel (guess + 1) else guess

def search (tie : Tie) (i : Interval) (first : Int) : Nat → Nat → Digits
  | 0, _ => ⟨i.mid / i.den, 0⟩
  | fuel + 1, count =>
    match neighbour? tie i (first + 1 - count) with
    | some digits => digits
    | none => search tie i first fuel (count + 1)

/-- drops zeros at the end, which a neighbour that rounds up to a power of ten has -/
def dropZeros : Nat → Digits → Digits
  | 0, d => d
  | fuel + 1, d => if d.value % 10 = 0 && d.value ≠ 0 then dropZeros fuel ⟨d.value / 10, d.exponent + 1⟩ else d

end Shortest

open Shortest

/-- the shortest digits of a finite number that is not zero, sign apart -/
def shortest (tie : Tie) (x : Binary64) : Digits :=
  let i := interval x
  let estimate : Int := (((Nat.log2 i.mid : Int) - (Nat.log2 i.den : Int)) * 30103) / 100000 - 2
  let first := leadingExponent i.mid i.den 8 estimate
  dropZeros 20 (search tie i first 17 1)

end TestTrail.Decimal
