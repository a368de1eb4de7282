/-
Reports in JSON, the form in which they are kept as files.
-/
import TestTrail.Report
import TestTrail.Retry.Json
import TestTrail.Tree.Json

namespace TestTrail

open TestTrail.Json (present required orElse optional)

namespace MethodReport

def toJson (r : MethodReport) : Json :=
  .obj
    ([("method", .str r.method), ("state", .str r.state.tag), ("status", .str r.status.tag),
        ("attempts", .int r.attempts.toNat)] ++
      present "error" RecordedFailure.toJson r.error ++ [("steps", .arr (Node.forestJson r.steps))])

def ofJson? (j : Json) : Option MethodReport :=
  match j.fields? ["method", "state", "status", "attempts", "error", "steps"] with
  | some [method, state, status, attempts, error, steps] => do
    let method ← required method Json.toString?
    let state ← required state MethodState.ofJson?
    let status ← required status TestStatus.ofJson?
    let attempts ← required attempts Json.toUInt32?
    let error ← optional error RecordedFailure.ofJson?
    let steps ← required steps (Json.toList? Node.ofJson?)
    some { method := method, state := state, status := status, attempts := attempts, error := error, steps := steps }
  | _ => none

end MethodReport

namespace ContextReport

def toJson (r : ContextReport) : Json :=
  .obj
    [("context", .str r.context), ("started_at", r.startedAt.toJson), ("duration_ms", .int r.durationMs),
      ("passed", r.passed.toJson), ("failed", r.failed.toJson), ("skipped", r.skipped.toJson),
      ("methods", .arr (r.methods.map MethodReport.toJson))]

def ofJson? (j : Json) : Option ContextReport :=
  match j.fields? ["context", "started_at", "duration_ms", "passed", "failed", "skipped", "methods"] with
  | some [context, startedAt, durationMs, passed, failed, skipped, methods] => do
    let context ← required context Json.toString?
    let startedAt ← required startedAt Timestamp.ofJson?
    let durationMs ← required durationMs Json.toNat?
    let passed ← required passed ResultMap.ofJson?
    let failed ← required failed ResultMap.ofJson?
    let skipped ← required skipped ResultMap.ofJson?
    let methods ← required methods (Json.toList? MethodReport.ofJson?)
    some
      { context := context, startedAt := startedAt, durationMs := durationMs, passed := passed, failed := failed
        skipped := skipped, methods := methods }
  | _ => none

end ContextReport

end TestTrail
