/-
One running test: everything a call can see or change.

A call takes the state of the test and gives an outcome and a new state. The outcome is a value, a failure, or a crash,
which is no failure of the test: it ends the whole program. `own` is what a test body keeps for itself between its calls.

Screenshots are numbered per test. One is taken only with an output directory and a driver; a driver that refuses costs
no number, a file that cannot be written costs one.
-/
import TestTrail.Clock
import TestTrail.Driver
import TestTrail.Operation
import TestTrail.Recorder
import TestTrail.Settings
import TestTrail.Store
import TestTrail.Text.Quoted

namespace TestTrail

open TestTrail.Text

/-- why a program ends at once -/
inductive Crash where
  /-- a deadline beyond what the clock can show -/
  | deadlineOverflow
  /-- attempts without end, on a clock that stands still -/
  | endless
  /-- a number of retries whose double does not fit 32 bits -/
  | budgetOverflow
  deriving DecidableEq, Repr

def Crash.message : Crash → String
  | .deadlineOverflow => "overflow when adding duration to instant"
  | .endless => "attempts without end"
  | .budgetOverflow => "attempt to multiply with overflow"

/-- how a call ended -/
inductive Outcome (α : Type) where
  | ok (value : α)
  | failed (failure : Failure)
  | crashed (crash : Crash)
  deriving DecidableEq, Repr

namespace Outcome

variable {α β : Type}

def map (f : α → β) : Outcome α → Outcome β
  | ok a => ok (f a)
  | failed e => failed e
  | crashed c => crashed c

/-- the failure, if the call failed -/
def failure? : Outcome α → Option Failure
  | failed e => some e
  | _ => none

def ofExcept : Except Failure α → Outcome α
  | .ok a => ok a
  | .error e => failed e

end Outcome

structure TestRun (σ : Type) where
  test : String
  settings : Settings
  registry : Registry
  recorder : Recorder
  driver : Option Driver := none
  cucumber : Bool := false
  outputDir : Option String := none
  screenshots : Nat := 0
  clock : Clock
  store : Store := {}
  own : σ

/-- code of a test: an outcome and what it did -/
abbrev Body (σ α : Type) := TestRun σ → Outcome α × TestRun σ

namespace TestRun

variable {σ : Type}

/-- a test about to start -/
def start (test : String) (settings : Settings) (registry : Registry) (clock : Clock) (store : Store)
    (now : Timestamp) (own : σ) : TestRun σ :=
  { test := test, settings := settings, registry := registry, clock := clock, store := store, own := own
    recorder := { maskEnabled := settings.maskPassword, now := now } }

/-- applies an operation of the recorder -/
def record (r : TestRun σ) (f : Recorder → Recorder) : TestRun σ := { r with recorder := f r.recorder }

/-- lets time pass -/
def pause (r : TestRun σ) (nanos : Nat) : TestRun σ :=
  { r with
    clock := r.clock.pause nanos
    recorder := { r.recorder with now := Timestamp.ofEpoch (r.recorder.now.toEpoch + nanos) } }

/-- the failure of calls that need a driver when there is none -/
def noDriver : Failure := ⟨.configuration, "no driver attached to the test"⟩

/-- the path of the next screenshot -/
def screenshotPath (r : TestRun σ) (dir label : String) : String :=
  Path.join dir
    (Path.safeName r.test ++ "_" ++ toString (r.screenshots + 1) ++ "_" ++ Path.safeName label ++ ".png")

/-- takes a screenshot and writes it, if both work -/
def captureScreenshot (r : TestRun σ) (label : String) : Option Attachment × TestRun σ :=
  match r.outputDir, r.driver with
  | some dir, some driver =>
    match driver.screenshot with
    | (.error _, driver) => (none, { r with driver := some driver })
    | (.ok screen, driver) =>
      let path := r.screenshotPath dir label
      let r := { r with driver := some driver, screenshots := r.screenshots + 1 }
      let (problem, store) := r.store.writeInto dir path (.image screen)
      (if problem.isSome then none else some ⟨label, path⟩, { r with store := store })
  | _, _ => (none, r)

/-- ends the test: a last screenshot, the closing step, and the finished tree -/
def finish (r : TestRun σ) (failure : Option Failure) : List Node × TestRun σ :=
  let (screenshot, r) := r.captureScreenshot Recorder.endName
  let (steps, recorder) := (r.recorder.finish failure screenshot).takeSteps
  (steps, { r with recorder := recorder })

/-- the test in one line -/
def describe (r : TestRun σ) : String :=
  let driver := match r.driver with
    | some _ => "Some(" ++ Quoted.encode Driver.name ++ ")"
    | none => "None"
  "ExecutionContext \x7b test_name: " ++ Quoted.encode r.test ++ ", driver: " ++ driver ++ ", cucumber_test: " ++
    (if r.cucumber then "true" else "false") ++ ", open_steps: " ++ toString r.recorder.depth ++ " \x7d"

end TestRun

end TestTrail
