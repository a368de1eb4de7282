/-
Test results in JSON: a result map is the list of its results, in order and as they are.
-/
import TestTrail.Failure.Json
import TestTrail.Retry.Coordinator

namespace TestTrail

open TestTrail.Json (present required orElse optional)

namespace TestStatus

def all : List TestStatus := [success, failure, skip]

def tag : TestStatus → String
  | success => "success"
  | failure => "failure"
  | skip => "skip"

def ofJson? (j : Json) : Option TestStatus := Json.oneOf? false tag all j

end TestStatus

namespace MethodState

def all : List MethodState := [running, passed, failedFinal, failedRetrying, skipped]

def tag : MethodState → String
  | running => "running"
  | passed => "passed"
  | failedFinal => "failed_final"
  | failedRetrying => "failed_retrying"
  | skipped => "skipped"

def ofJson? (j : Json) : Option MethodState := Json.oneOf? false tag all j

end MethodState

namespace TestResult

def toJson (r : TestResult) : Json :=
  .obj
    ([("method", .str r.method), ("context", .str r.context), ("status", .str r.status.tag),
        ("retry", .int r.retry.toNat), ("start_millis", .int r.startMillis.toInt),
        ("end_millis", .int r.endMillis.toInt)] ++
      present "error" RecordedFailure.toJson r.error ++ [("no_more_retry", .bool r.noMoreRetry)])

def fieldNames : List String :=
  ["method", "context", "status", "retry", "start_millis", "end_millis", "error", "no_more_retry"]

def ofJson? (j : Json) : Option TestResult :=
  match j.fields? fieldNames with
  | some [method, context, status, retry, startMillis, endMillis, error, noMoreRetry] => do
    let method ← required method Json.toString?
    let context ← required context Json.toString?
    let status ← required status TestStatus.ofJson?
    let retry ← required retry Json.toUInt32?
    let startMillis ← required startMillis Json.toInt64?
    let endMillis ← required endMillis Json.toInt64?
    let error ← optional error RecordedFailure.ofJson?
    let noMoreRetry ← orElse noMoreRetry Json.toBool? false
    some
      { method := method, context := context, status := status, retry := retry, startMillis := startMillis
        endMillis := endMillis, error := error, noMoreRetry := noMoreRetry }
  | _ => none

end TestResult

namespace ResultMap

def toJson (m : ResultMap) : Json := .arr (m.results.map TestResult.toJson)

def ofJson? (j : Json) : Option ResultMap := (j.toList? TestResult.ofJson?).map fun results => ⟨results⟩

end ResultMap

namespace NativeResults

def toJson (n : NativeResults) : Json :=
  .obj
    [("context", .str n.context), ("passed", n.passed.toJson), ("failed", n.failed.toJson),
      ("skipped", n.skipped.toJson)]

def ofJson? (j : Json) : Option NativeResults :=
  match j.fields? ["context", "passed", "failed", "skipped"] with
  | some [context, passed, failed, skipped] => do
    let context ← required context Json.toString?
    let passed ← required passed ResultMap.ofJson?
    let failed ← required failed ResultMap.ofJson?
    let skipped ← required skipped ResultMap.ofJson?
    some ⟨context, passed, failed, skipped⟩
  | _ => none

end NativeResults

namespace Budget

def members (b : Budget) : List (String × Json) := [("count", .int b.count.toNat), ("max", .int b.max.toNat)]

end Budget

namespace ContextState

def toJson (s : ContextState) : Json :=
  .obj
    [("failed", s.failed.toJson), ("skipped", s.skipped.toJson), ("passed", s.passed.toJson),
      ("retry_handle_needed", .bool s.handleNeeded),
      ("methods", .obj (s.methods.map fun m => (m.1, .str m.2.tag)))]

end ContextState

end TestTrail
