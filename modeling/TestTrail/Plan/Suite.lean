/-
Running a test plan as a suite.

An execution of a plan's test builds the driver for the retry number, runs the calls, and finishes the record with the
outcome. Executions share an environment: the clock, the time of day, and the files. Screenshots go into a directory
named after the context.
-/
import TestTrail.Plan.Run
import TestTrail.Suite
import TestTrail.Text.Quoted

namespace TestTrail

open TestTrail.Text

/-- what executions share -/
structure Environment where
  clock : Clock
  now : Timestamp
  store : Store := {}

/-- milliseconds since 1970 -/
def Timestamp.toMillis (t : Timestamp) : Int64 := Int64.ofInt (t.toEpoch.fdiv 1000000)

/-- how a plan's tests are run -/
structure SuiteSetup where
  settings : Settings
  registry : Registry
  context : String
  outputDir : Option String := none

namespace PlanTest

/-- the test at the start of an execution -/
def begin (t : PlanTest) (setup : SuiteSetup) (retry : UInt32) (env : Environment) : TestRun Unit :=
  { TestRun.start t.name setup.settings setup.registry env.clock env.store env.now () with
    driver := some (t.driver.build retry)
    cucumber := t.cucumber
    outputDir := setup.outputDir.map fun dir => Path.join dir (Path.safeName setup.context) }

def execute (t : PlanTest) (setup : SuiteSetup) (retry : UInt32) (env : Environment) :
    Except Crash Execution × Environment :=
  let (outcome, run) := Call.runAll t.calls (t.begin setup retry env)
  let after : Environment := ⟨run.clock, run.recorder.now, run.store⟩
  match outcome with
  | .crashed crash => (.error crash, after)
  | _ =>
    let (steps, run) := run.finish outcome.failure?
    (.ok ⟨outcome.failure?, steps, env.now.toMillis, run.recorder.now.toMillis⟩, { after with store := run.store })

def toTestCase (t : PlanTest) (setup : SuiteSetup) : TestCase Environment := ⟨t.name, t.execute setup⟩

/-- the line that lists a test -/
def describe (t : PlanTest) : String :=
  "TestCase \x7b name: " ++ Quoted.encode t.name ++ ", cucumber: " ++ (if t.cucumber then "true" else "false") ++
    ", driver: true \x7d"

end PlanTest

/-- what a suite leaves behind; there is no report when a test crashed -/
structure SuiteResult where
  report : Except Crash ContextReport
  coordinator : Coordinator
  hooks : List Hook
  env : Environment

namespace SuiteSetup

def report (setup : SuiteSetup) (start stop : Timestamp) (native : NativeResults) (methods : List MethodReport) :
    ContextReport :=
  { context := setup.context, startedAt := start, durationMs := start.millisUntil stop, passed := native.passed
    failed := native.failed, skipped := native.skipped, methods := methods }

/-- runs tests of a plan; settings that are not valid stop it before the first test -/
def run (setup : SuiteSetup) (tests : List PlanTest) (env : Environment) : Except Problem SuiteResult :=
  match setup.settings.problem? with
  | some p => .error p
  | none =>
    let suite := (Suite.start setup.context setup.settings.testRetryCount
      (tests.map fun t => t.toTestCase setup) env).runInOrder
    let (native, shared) := suite.finish
    .ok
      { report := suite.methodReports.map (setup.report env.now shared.world.now native)
        coordinator := shared.coordinator
        hooks := shared.hooks
        env := shared.world }

end SuiteSetup

end TestTrail
