/-
Time as tests see it.

A clock is read now and then, and tests pause. Both are noted: what a reading shows may depend on the time paused so far
and on the number of readings before it, and on nothing else. `steady` is the clock of a program that takes no time except
when it pauses; a theorem about all clocks ranges over every sequence of readings. Times are whole nanoseconds.
-/

namespace TestTrail

structure Clock where
  /-- the time shown, from the time paused so far and the number of earlier readings -/
  reading : Nat → Nat → Nat
  paused : Nat := 0
  readings : Nat := 0

namespace Clock

def now (c : Clock) : Nat := c.reading c.paused c.readings

/-- the clock after one reading -/
def afterReading (c : Clock) : Clock := { c with readings := c.readings + 1 }

def pause (c : Clock) (nanos : Nat) : Clock := { c with paused := c.paused + nanos }

/-- time passes in pauses only -/
def steady (start : Nat) : Clock := { reading := fun paused _ => start + paused }

end Clock

def nanosPerMilli : Nat := 1000000

def nanosPerSecond : Nat := 1000000000

end TestTrail
