/-
Running the tests of a context side by side, with retries.

Every test has a worker. A worker announces its method to the coordinator, executes the body, files a failure with the
runner's failed results, tells the coordinator how the execution ended, files a success or a skip, and then either starts
over or is done. Each of these is one atomic step on what the workers share: the coordinator, the runner's results, and
the world that bodies act on. A failure that the coordinator lets be retried takes a retry out of the worker's budget. A
worker that cannot have a budget has crashed before its first step.

`run` is a run under any schedule, a list of the workers that make the next step. The program itself runs the workers one
after the other (`runInOrder`), which is one of these schedules. `hooks` is what the coordinator was told, in order.
-/
import TestTrail.Report
import TestTrail.TestRun

namespace TestTrail

/-- one execution of a test body -/
structure Execution where
  failure : Option Failure
  steps : List Node
  startMillis : Int64
  endMillis : Int64

/-- a test: its name, and what its body does to the world at each retry number -/
structure TestCase (ω : Type) where
  name : String
  execute : UInt32 → ω → Except Crash Execution × ω

/-- what the coordinator is told -/
inductive Hook where
  | contextStart (context : String)
  | methodStart (context method : String)
  /-- the result as it counts, the retries taken so far, and the state of the method -/
  | methodEnd (result : TestResult) (count : UInt32) (state : MethodState)
  | contextEnd (context : String)
  deriving DecidableEq, Repr

/-- how far a worker is with an execution; `result` is the result of it, `steps` its tree -/
inductive Phase where
  | starting
  | executing
  | filingFailure (result : TestResult) (steps : List Node)
  | ending (result : TestResult) (steps : List Node)
  | filingOutcome (result : TestResult) (state : MethodState) (steps : List Node)
  | done (report : MethodReport)
  | crashed (crash : Crash)

structure Worker (ω : Type) where
  test : TestCase ω
  budget : Budget
  retry : UInt32 := 0
  phase : Phase := .starting

/-- what the workers share -/
structure Shared (ω : Type) where
  context : String
  coordinator : Coordinator := {}
  native : NativeResults
  world : ω
  hooks : List Hook := []

structure Suite (ω : Type) where
  shared : Shared ω
  workers : List (Worker ω)

namespace Suite

variable {ω : Type}

/-- the worker of a test; without a budget it crashes before it does anything -/
def hire (retries : UInt32) (t : TestCase ω) : Worker ω :=
  match Budget.ofMax? retries with
  | some b => { test := t, budget := b }
  | none => { test := t, budget := .empty, phase := .crashed .budgetOverflow }

/-- a context that is about to start, with so many retries per test -/
def start (context : String) (retries : UInt32) (tests : List (TestCase ω)) (world : ω) : Suite ω :=
  { shared :=
      { context := context, coordinator := Coordinator.contextStart {} context, native := { context := context }
        world := world, hooks := [.contextStart context] }
    workers := tests.map (hire retries) }

/-- the result of an execution -/
def resultOf (context : String) (w : Worker ω) (e : Execution) : TestResult :=
  { method := w.test.name, context := context, status := if e.failure.isSome then .failure else .success
    retry := w.retry, startMillis := e.startMillis, endMillis := e.endMillis
    error := e.failure.map Failure.recorded }

/-- files a result with the runner, unless it is a failure -/
def fileOutcome (native : NativeResults) (result : TestResult) : NativeResults :=
  match result.status with
  | .success => { native with passed := native.passed.add result }
  | .skip => { native with skipped := native.skipped.add result }
  | .failure => native

/-- the worker behind an execution: starting over, or done -/
def afterOutcome (w : Worker ω) (result : TestResult) (state : MethodState) (steps : List Node) : Worker ω :=
  let report : MethodReport :=
    { method := w.test.name, state := state, status := result.status, attempts := w.retry + 1
      error := result.error, steps := steps }
  if state = .failedRetrying then
    match w.budget.take result with
    | (true, budget) => { w with budget := budget, retry := w.retry + 1, phase := .starting }
    | (false, budget) => { w with budget := budget, phase := .done report }
  else { w with phase := .done report }

/-- the next atomic step of a worker -/
def advance (w : Worker ω) (s : Shared ω) : Worker ω × Shared ω :=
  match w.phase with
  | .starting =>
    ({ w with phase := .executing },
      { s with
        coordinator := s.coordinator.methodStart s.context w.test.name
        hooks := s.hooks ++ [.methodStart s.context w.test.name] })
  | .executing =>
    match w.test.execute w.retry s.world with
    | (.error crash, world) => ({ w with phase := .crashed crash }, { s with world := world })
    | (.ok e, world) =>
      let result := resultOf s.context w e
      let phase := if e.failure.isSome then Phase.filingFailure result e.steps else Phase.ending result e.steps
      ({ w with phase := phase }, { s with world := world })
  | .filingFailure result steps =>
    ({ w with phase := .ending result steps },
      { s with native := { s.native with failed := s.native.failed.add result } })
  | .ending result steps =>
    let ((result, state), coordinator) := s.coordinator.methodEnd result (w.budget.grants result)
    ({ w with phase := .filingOutcome result state steps },
      { s with
        coordinator := coordinator
        hooks := s.hooks ++ [.methodEnd result w.budget.count state] })
  | .filingOutcome result state steps =>
    (afterOutcome w result state steps, { s with native := fileOutcome s.native result })
  | .done _ => (w, s)
  | .crashed _ => (w, s)

def step (s : Suite ω) (i : Nat) : Suite ω :=
  match s.workers[i]? with
  | none => s
  | some w =>
    let (w, shared) := advance w s.shared
    { shared := shared, workers := s.workers.set i w }

/-- a run in which the scheduled workers make one step each -/
def run (s : Suite ω) (schedule : List Nat) : Suite ω := schedule.foldl step s

def Worker.isDone (w : Worker ω) : Bool :=
  match w.phase with
  | .done _ => true
  | .crashed _ => true
  | _ => false

/-- lets one worker make steps until it is done -/
def workAlone : Nat → Worker ω → Shared ω → Worker ω × Shared ω
  | 0, w, s => (w, s)
  | fuel + 1, w, s => if Worker.isDone w then (w, s) else
    let (w, s) := advance w s
    workAlone fuel w s

/-- enough steps for all attempts that a budget allows -/
def stepsNeeded (b : Budget) : Nat := 5 * (b.max.toNat + 1)

/-- one worker after the other -/
def workInOrder : List (Worker ω) → Shared ω → List (Worker ω) × Shared ω
  | [], s => ([], s)
  | w :: ws, s =>
    let (w, s) := workAlone (stepsNeeded w.budget) w s
    let (ws, s) := workInOrder ws s
    (w :: ws, s)

def runInOrder (s : Suite ω) : Suite ω :=
  let (workers, shared) := workInOrder s.workers s.shared
  ⟨shared, workers⟩

/-- the report of a worker that is done -/
def reportOf (w : Worker ω) : Except Crash MethodReport :=
  match w.phase with
  | .done report => .ok report
  | .crashed crash => .error crash
  | _ => .error .endless

/-- ends the context: the results that remain and the state of the coordinator -/
def finish (s : Suite ω) : NativeResults × Shared ω :=
  let (native, coordinator) := s.shared.coordinator.contextEnd s.shared.native
  (native,
    { s.shared with
      native := native, coordinator := coordinator
      hooks := s.shared.hooks ++ [.contextEnd s.shared.context] })

/-- the reports of all workers, in the order of the tests -/
def methodReports (s : Suite ω) : Except Crash (List MethodReport) := s.workers.mapM reportOf

end Suite

end TestTrail
