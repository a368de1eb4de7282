/-
Moments of time in UTC, as calendar fields.

The fields of a `Calendar` may hold anything. Those of a `Timestamp` are a moment's, so what is read from a text, and
what a local time is shifted to, passes through `ofCalendar?`.

`write` is the RFC 3339 form with `Z` and no, three, six or nine places of a second. `read?` takes that form and its
relaxed relatives: a blank or a small `t` between date and time, blanks between the parts, a signed year of any length,
`UTC` for `Z`, and any offset below a day, which is taken off. A leap second keeps its number 60. `ofEpoch` and
`toEpoch` convert from and to nanoseconds since 1970.
-/
import TestTrail.Text.Blank
import TestTrail.Text.Digits

namespace TestTrail

open TestTrail.Text

/-- what the fields of a date and a time of day may hold, whether there is such a moment or not -/
structure Calendar where
  year : Int
  month : Nat
  day : Nat
  hour : Nat := 0
  minute : Nat := 0
  second : Nat := 0
  nanos : Nat := 0
  deriving DecidableEq, Repr

namespace Calendar

def isLeapYear (year : Int) : Bool := year % 4 == 0 && (year % 100 != 0 || year % 400 == 0)

def daysIn (year : Int) (month : Nat) : Nat :=
  match month with
  | 2 => if isLeapYear year then 29 else 28
  | 4 | 6 | 9 | 11 => 30
  | _ => 31

/-- the years a calendar date may lie in -/
def yearInRange (year : Int) : Bool := decide (-262143 ≤ year ∧ year ≤ 262142)

/-- fields that name a moment -/
def valid (c : Calendar) : Bool :=
  yearInRange c.year && decide (1 ≤ c.month ∧ c.month ≤ 12) && decide (1 ≤ c.day ∧ c.day ≤ daysIn c.year c.month) &&
    decide (c.hour < 24 ∧ c.minute < 60 ∧ c.second ≤ 60 ∧ c.nanos < 1000000000)

def nextDay (c : Calendar) : Calendar :=
  if c.day < daysIn c.year c.month then { c with day := c.day + 1 }
  else if c.month < 12 then { c with month := c.month + 1, day := 1 }
  else { c with year := c.year + 1, month := 1, day := 1 }

def previousDay (c : Calendar) : Calendar :=
  if 1 < c.day then { c with day := c.day - 1 }
  else if 1 < c.month then { c with month := c.month - 1, day := daysIn c.year (c.month - 1) }
  else { c with year := c.year - 1, month := 12, day := 31 }

/-- the fields in UTC of a local time where clocks are `minutes` ahead, less than a day either way -/
def minusOffset (c : Calendar) (minutes : Int) : Calendar :=
  let total : Int := 60 * c.hour + c.minute - minutes
  let (c, total) :=
    if total < 0 then (c.previousDay, total + 1440)
    else if 1440 ≤ total then (c.nextDay, total - 1440)
    else (c, total)
  { c with hour := total.toNat / 60, minute := total.toNat % 60 }

end Calendar

/-- a moment: fields that name one -/
structure Timestamp extends Calendar where
  valid : toCalendar.valid = true := by decide
  deriving DecidableEq, Repr

namespace Timestamp

instance : Inhabited Timestamp := ⟨{ year := 1970, month := 1, day := 1 }⟩

/-- the moment that fields name, if they name one -/
def ofCalendar? (c : Calendar) : Option Timestamp := if h : c.valid = true then some ⟨c, h⟩ else none

/-- the first moment of the years in range -/
def first : Timestamp := { year := -262143, month := 1, day := 1 }

/-- the last moment of the years in range -/
def last : Timestamp :=
  { year := 262142, month := 12, day := 31, hour := 23, minute := 59, second := 59, nanos := 999999999 }

/-! ## Text -/

def yearText (year : Int) : String :=
  if 0 ≤ year ∧ year ≤ 9999 then padded 4 year.toNat
  else (if year < 0 then "-" else "+") ++ padded 4 year.natAbs

/-- the places behind the second: none, three, six or nine -/
def fractionText (nanos : Nat) : String :=
  if nanos = 0 then ""
  else if nanos % 1000000 = 0 then "." ++ padded 3 (nanos / 1000000)
  else if nanos % 1000 = 0 then "." ++ padded 6 (nanos / 1000)
  else "." ++ padded 9 nanos

/-- everything but the zone -/
def writeLocal (t : Timestamp) : String :=
  yearText t.year ++ "-" ++ padded 2 t.month ++ "-" ++ padded 2 t.day ++ "T" ++ padded 2 t.hour ++ ":" ++
    padded 2 t.minute ++ ":" ++ padded 2 t.second ++ fractionText t.nanos

def write (t : Timestamp) : String := t.writeLocal ++ "Z"

/-- the form with a numeric zone -/
def writeWithOffset (t : Timestamp) : String := t.writeLocal ++ "+00:00"

/-- the form in file names, to the second -/
def stamp (t : Timestamp) : String :=
  yearText t.year ++ padded 2 t.month ++ padded 2 t.day ++ "_" ++ padded 2 t.hour ++ padded 2 t.minute ++
    padded 2 t.second

/-- one to `most` digits at the front, after blanks -/
def number? (most : Nat) (cs : List Char) : Option (Nat × List Char) :=
  let cs := dropBlanks cs
  let digits := (cs.takeWhile isDigit).take most
  if digits.isEmpty then none else some (digitsValue digits, cs.drop digits.length)

/-- a year of four digits, or of any number behind a sign -/
def year? (cs : List Char) : Option (Int × List Char) :=
  let signed (sign : Int) (rest : List Char) : Option (Int × List Char) :=
    let digits := rest.takeWhile isDigit
    if digits.isEmpty then none else some (sign * digitsValue digits, rest.drop digits.length)
  match dropBlanks cs with
  | '-' :: rest => signed (-1) rest
  | '+' :: rest => signed 1 rest
  | rest => (number? 4 rest).map fun (n, rest) => ((n : Int), rest)

/-- the mark between two parts, after blanks -/
def mark? (mark : Char) (cs : List Char) : Option (List Char) :=
  match dropBlanks cs with
  | c :: rest => if c = mark then some rest else none
  | [] => none

/-- the places behind the second; digits behind the ninth are dropped -/
def fraction? (cs : List Char) : Option (Nat × List Char) :=
  match cs with
  | '.' :: rest =>
    let digits := rest.takeWhile isDigit
    let kept := digits.take 9
    if digits.isEmpty then none
    else some (digitsValue kept * Nat.pow 10 (9 - kept.length), rest.drop digits.length)
  | _ => some (0, cs)

/-- the offset from UTC in minutes -/
def offset? (cs : List Char) : Option (Int × List Char) :=
  let clock (sign : Int) (rest : List Char) : Option (Int × List Char) :=
    match rest with
    | h1 :: h2 :: rest =>
      match rest.dropWhile fun c => c == ':' || isBlank c with
      | m1 :: m2 :: rest =>
        if isDigit h1 && isDigit h2 && isDigit m1 && isDigit m2 && decide (m1 ≤ '5') then
          let hours := digitsValue [h1, h2]
          if hours < 24 then some (sign * (60 * hours + digitsValue [m1, m2] : Nat), rest) else none
        else none
      | _ => none
    | _ => none
  match cs with
  | 'z' :: rest => some (0, rest)
  | 'Z' :: rest => some (0, rest)
  | '+' :: rest => clock 1 rest
  | '-' :: rest => clock (-1) rest
  | '−' :: rest => clock (-1) rest
  | u :: t :: c :: rest => if [u, t, c].map Char.toLower = ['u', 't', 'c'] then some (0, rest) else none
  | _ => none

def readChars? (cs : List Char) : Option Timestamp := do
  let (year, cs) ← year? cs
  let cs ← mark? '-' cs
  let (month, cs) ← number? 2 cs
  let cs ← mark? '-' cs
  let (day, cs) ← number? 2 cs
  let cs ← match cs with
    | c :: rest => if c = 't' ∨ c = 'T' ∨ c = ' ' then some rest else none
    | [] => none
  let (hour, cs) ← number? 2 cs
  let cs ← mark? ':' cs
  let (minute, cs) ← number? 2 cs
  let cs ← mark? ':' cs
  let (second, cs) ← number? 2 cs
  let (nanos, cs) ← fraction? cs
  let (minutes, cs) ← offset? (dropBlanks cs)
  let c : Calendar := ⟨year, month, day, hour, minute, second, nanos⟩
  if (dropBlanks cs).isEmpty && c.valid then ofCalendar? (c.minusOffset minutes) else none

def read? (s : String) : Option Timestamp := readChars? s.toList

/-! ## Days since 1970 -/

/-- days from 1970-01-01 to a date, counting years from March -/
def daysSinceEpoch (t : Timestamp) : Int :=
  let y : Int := if t.month ≤ 2 then t.year - 1 else t.year
  let era := y.fdiv 400
  let yearOfEra := y - era * 400
  let monthFromMarch : Int := if t.month ≤ 2 then t.month + 9 else (t.month : Int) - 3
  let dayOfYear := (153 * monthFromMarch + 2) / 5 + t.day - 1
  era * 146097 + (yearOfEra * 365 + yearOfEra / 4 - yearOfEra / 100 + dayOfYear) - 719468

/-- the date that is some days after 1970-01-01 -/
def ofDays (days : Int) : Calendar :=
  let z := days + 719468
  let era := z.fdiv 146097
  let dayOfEra := z - era * 146097
  let yearOfEra := (dayOfEra - dayOfEra / 1460 + dayOfEra / 36524 - dayOfEra / 146096) / 365
  let dayOfYear := dayOfEra - (365 * yearOfEra + yearOfEra / 4 - yearOfEra / 100)
  let monthFromMarch := (5 * dayOfYear + 2) / 153
  let day := dayOfYear - (153 * monthFromMarch + 2) / 5 + 1
  let month := if monthFromMarch < 10 then monthFromMarch + 3 else monthFromMarch - 9
  let year := yearOfEra + era * 400
  { year := if month ≤ 2 then year + 1 else year, month := month.toNat, day := day.toNat }

/-- the fields of the moment some nanoseconds after the start of 1970 -/
def calendarOfEpoch (nanos : Int) : Calendar :=
  let seconds := nanos.fdiv 1000000000
  let days := seconds.fdiv 86400
  let rest := (seconds - days * 86400).toNat
  { ofDays days with
    hour := rest / 3600, minute := rest / 60 % 60, second := rest % 60, nanos := (nanos - seconds * 1000000000).toNat }

/-- the moment some nanoseconds after the start of 1970; a clock that leaves the years in range stops at their end -/
def ofEpoch (nanos : Int) : Timestamp :=
  (ofCalendar? (calendarOfEpoch nanos)).getD (if nanos < 0 then first else last)

def toEpoch (t : Timestamp) : Int :=
  (t.daysSinceEpoch * 86400 + 3600 * t.hour + 60 * t.minute + t.second) * 1000000000 + t.nanos

/-- whole milliseconds from one moment to a later one, zero when it is not later -/
def millisUntil (start stop : Timestamp) : Nat := ((stop.toEpoch - start.toEpoch) / 1000000).toNat

end Timestamp

end TestTrail
