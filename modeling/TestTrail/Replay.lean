/-
Replay: trying a flaky action again until a deadline.

The deadline is the first reading of the clock plus the timeout. An attempt puts the driver back to the top document,
then into the frame if one is given, and runs the body; a failure of the switches counts as the attempt's outcome. A
transient failure is tried again after a pause, unless the clock then shows that the deadline has passed: the replay is
exhausted and ends with that failure. The pause never reaches beyond the deadline. Any other outcome ends the replay.

What a discarded attempt recorded is rolled back, so only the last attempt shows. Attempts are counted with 32 bits: behind
the last number the count starts again from zero. A replay on a clock that stands still may have no end; here it crashes
after as many attempts as the clock has moments.
-/
import TestTrail.Decimal.Notation
import TestTrail.TestRun
import TestTrail.Word

namespace TestTrail

open TestTrail.Decimal

/-- the budget of a replay, in nanoseconds -/
structure Replay where
  timeout : Nat
  delay : Nat
  deriving DecidableEq, Repr

/-- how a replay ended -/
structure Replayed (α : Type) where
  result : Outcome α
  /-- the attempts made, as they are counted -/
  attempts : Nat
  /-- given up on a transient failure -/
  exhausted : Bool
  deriving DecidableEq, Repr

namespace Replay

variable {σ α : Type}

def ofSettings (s : Settings) : Replay := ⟨s.replayTimeoutNanos, s.replayDelayNanos⟩

/-- one past the last moment that fits the clock's seconds -/
def clockLimit : Nat := Word.limit63 * nanosPerSecond

/-- on a clock that moves on with every attempt there is an end before so many -/
def attemptLimit : Nat := clockLimit

/-- a number of attempts as 32 bits count it -/
def counted (attempts : Nat) : Nat := attempts % Word.limit32

/-- puts the driver, if any, into the frame of an action -/
def restoreFrame (frame : Option String) (r : TestRun σ) : Except Failure Unit × TestRun σ :=
  match r.driver with
  | none => (.ok (), r)
  | some driver =>
    match driver.toDefaultContent, frame with
    | (.ok (), driver), some frame =>
      let (result, driver) := driver.toFrame frame
      (result, { r with driver := some driver })
    | (result, driver), _ => (result, { r with driver := some driver })

/-- one attempt -/
def attempt (frame : Option String) (body : Body σ α) : Body σ α := fun r =>
  match restoreFrame frame r with
  | (.ok (), r) => body r
  | (.error f, r) => (.failed f, r)

/-- attempts from now on; `fuel` more are made at most, `done` were made -/
def attemptsFrom (e : Replay) (deadline : Nat) (frame : Option String) (body : Body σ α) :
    Nat → Nat → TestRun σ → Replayed α × TestRun σ
  | 0, done, r => (⟨.crashed .endless, counted done, false⟩, r)
  | fuel + 1, done, r =>
    match attempt frame body r with
    | (.failed f, after) =>
      if f.transient then
        let now := after.clock.now
        let after := { after with clock := after.clock.afterReading }
        if deadline ≤ now then (⟨.failed f, counted (done + 1), true⟩, after)
        else
          let rolledBack := after.record fun rec => rec.rollback r.recorder.checkpoint
          attemptsFrom e deadline frame body fuel (done + 1) (rolledBack.pause (min e.delay (deadline - now)))
      else (⟨.failed f, counted (done + 1), false⟩, after)
    | (outcome, after) => (⟨outcome, counted (done + 1), false⟩, after)

/-- replays a body until it succeeds, fails for good, or the budget is used up -/
def run (e : Replay) (frame : Option String) (body : Body σ α) (r : TestRun σ) : Replayed α × TestRun σ :=
  let deadline := r.clock.now + e.timeout
  let r := { r with clock := r.clock.afterReading }
  if clockLimit ≤ deadline then (⟨.crashed .deadlineOverflow, 0, false⟩, r)
  else attemptsFrom e deadline frame body attemptLimit 0 r

/-- a length of time in seconds, as the sum of whole seconds and the fraction behind them -/
def secondsText (nanos : Nat) : String :=
  (Binary64.addMagnitudes (Binary64.ofRatio false (nanos / nanosPerSecond) 1)
    (Binary64.ofRatio false (nanos % nanosPerSecond) nanosPerSecond)).plain

/-- the warning recorded for an exhausted replay -/
def exhaustedMessage (e : Replay) (attempts : Nat) : String :=
  "replay timeout of " ++ secondsText e.timeout ++ "s exhausted after " ++ toString attempts ++ " attempts"

end Replay

end TestTrail
