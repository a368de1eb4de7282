/-
Reports: what is left of a context when its tests have run.

A method report holds the last execution of a test: how it ended, after how many attempts, and its step tree. A context
report holds the remaining results and the method reports in the order of the tests. A context succeeded when no failed
result remains.
-/
import TestTrail.Retry.Coordinator
import TestTrail.Tree.Outline

namespace TestTrail

structure MethodReport where
  method : String
  state : MethodState
  status : TestStatus
  attempts : UInt32
  error : Option RecordedFailure := none
  steps : List Node
  deriving BEq, Repr

structure ContextReport where
  context : String
  startedAt : Timestamp
  durationMs : Nat
  passed : ResultMap
  failed : ResultMap
  skipped : ResultMap
  methods : List MethodReport
  deriving BEq, Repr

/-- the name of a state in printed reports -/
def MethodState.label : MethodState → String
  | running => "Running"
  | passed => "Passed"
  | failedFinal => "FailedFinal"
  | failedRetrying => "FailedRetrying"
  | skipped => "Skipped"

/-- the name of a status in printed reports -/
def TestStatus.label : TestStatus → String
  | success => "Success"
  | failure => "Failure"
  | skip => "Skip"

namespace ContextReport

def success (r : ContextReport) : Bool := r.failed.isEmpty

def method? (r : ContextReport) (name : String) : Option MethodReport := r.methods.find? fun m => m.method == name

/-- the heading of a method and its outline, line by line -/
def methodLines (m : MethodReport) : List String :=
  ("== " ++ m.method ++ " [" ++ m.state.label ++ "] after " ++ toString m.attempts.toNat ++ " attempt(s)") ::
    Node.forestLines 0 m.steps

/-- the report as printed for people -/
def lines (r : ContextReport) : List String :=
  let names (m : ResultMap) : String := ", ".intercalate m.methods
  r.methods.flatMap methodLines ++
    ["", "Context " ++ r.context ++ " finished in " ++ toString r.durationMs ++ " ms",
      "  passed:  " ++ names r.passed, "  failed:  " ++ names r.failed, "  skipped: " ++ names r.skipped]

end ContextReport

end TestTrail
