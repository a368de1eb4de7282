/-
The coordinator of retries: what a runner reports, and the results that remain.

The runner tells when a context starts, when a method starts and ends, and when the context ends. A failure that will be
retried is turned into a skip; a failure that will not is recorded as final. At the end of a context in which anything was
retried, `reconcile` cleans the runner's own maps: of the skipped results those go whose method has a final failure or
passed, of the failed results those that were not recorded as final. Contexts do not see each other.
-/
import TestTrail.Keyed
import TestTrail.Retry.Budget

namespace TestTrail

inductive MethodState where
  | running
  | passed
  | failedFinal
  | failedRetrying
  | skipped
  deriving DecidableEq, Repr

/-- what the coordinator knows of a context -/
structure ContextState where
  failed : ResultMap := {}
  skipped : ResultMap := {}
  passed : ResultMap := {}
  /-- something was retried -/
  handleNeeded : Bool := false
  methods : Keyed MethodState := []
  deriving DecidableEq, Repr

structure Coordinator where
  running : Keyed ContextState := []
  finished : Keyed ContextState := []
  deriving DecidableEq, Repr

/-- what reconciling took out -/
structure Reconciliation where
  removedSkipped : List TestResult := []
  removedFailed : List TestResult := []
  deriving DecidableEq, Repr

/-- takes out skips whose method has an outcome after all -/
def removeSettledSkips (skipped recordedFailed passed : ResultMap) : ResultMap × List TestResult :=
  skipped.retain fun r => !recordedFailed.containsMethod r.method && !passed.containsMethod r.method

/-- takes out failures that were not final -/
def removeRetriedFailures (failed recordedFailed : ResultMap) : ResultMap × List TestResult :=
  failed.retain fun r => recordedFailed.containsKey r.key

def reconcile (native : NativeResults) (recordedFailed : ResultMap) : NativeResults × Reconciliation :=
  let (skipped, removedSkipped) := removeSettledSkips native.skipped recordedFailed native.passed
  let (failed, removedFailed) := removeRetriedFailures native.failed recordedFailed
  ({ native with skipped := skipped, failed := failed }, ⟨removedSkipped, removedFailed⟩)

namespace ContextState

def methodStarted (s : ContextState) (method : String) : ContextState :=
  { s with methods := s.methods.set method .running }

/-- the result and the state of the method after an execution; `willRetry` tells whether the runner tries again -/
def judge (result : TestResult) (willRetry : Bool) : TestResult × MethodState :=
  match result.status with
  | .success => (result, .passed)
  | .skip => (result, .skipped)
  | .failure => if willRetry then ({ result with status := .skip }, .failedRetrying) else (result, .failedFinal)

def methodEnded (s : ContextState) (result : TestResult) (willRetry : Bool) : ContextState :=
  let (result, state) := judge result willRetry
  { s with
    handleNeeded := s.handleNeeded || state == .failedRetrying
    failed := if state == .failedFinal then s.failed.add result else s.failed
    methods := s.methods.set result.method state }

/-- the runner's results and the final state of a context -/
def ended (s : ContextState) (native : NativeResults) : NativeResults × ContextState :=
  if s.handleNeeded then
    let native := (reconcile native s.failed).1
    (native, { s with skipped := native.skipped, passed := native.passed })
  else (native, { s with failed := native.failed, skipped := native.skipped, passed := native.passed })

end ContextState

namespace Coordinator

def contextStart (c : Coordinator) (context : String) : Coordinator := { c with running := c.running.set context {} }

/-- what is known of a context; a context nobody started is known from its first method on -/
def stateOf (c : Coordinator) (context : String) : ContextState := (c.running.get? context).getD {}

def methodStart (c : Coordinator) (context method : String) : Coordinator :=
  { c with running := c.running.set context ((c.stateOf context).methodStarted method) }

/-- answers the result as it counts from now on, and the state of the method -/
def methodEnd (c : Coordinator) (result : TestResult) (willRetry : Bool) :
    (TestResult × MethodState) × Coordinator :=
  (ContextState.judge result willRetry,
    { c with running := c.running.set result.context ((c.stateOf result.context).methodEnded result willRetry) })

/-- answers the runner's results as they remain; a context that is not running stays as it is -/
def contextEnd (c : Coordinator) (native : NativeResults) : NativeResults × Coordinator :=
  match c.running.get? native.context with
  | none => (native, c)
  | some s =>
    let (remaining, final) := s.ended native
    (remaining, ⟨c.running.erase native.context, c.finished.set native.context final⟩)

def handleNeeded? (c : Coordinator) (context : String) : Option Bool :=
  (c.running.get? context).map ContextState.handleNeeded

def methodState? (c : Coordinator) (context method : String) : Option MethodState :=
  (c.running.get? context).bind fun s => s.methods.get? method

def final? (c : Coordinator) (context : String) : Option ContextState := c.finished.get? context

end Coordinator

end TestTrail
