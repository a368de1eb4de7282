/-
Trees and reports without their clocks: what two runs of one plan have in common.

Moments and durations are left out, of results also when they started and ended. Results are sorted by method and retry
number, since the tests of a context run side by side.
-/
import TestTrail.Json.Lenient
import TestTrail.Report.Json

namespace TestTrail

def clockNames : List String := ["started_at", "timestamp", "duration_ms"]

def resultClockNames : List String := ["start_millis", "end_millis"]

namespace Node

/-- a forest without its clocks -/
def timelessJson (nodes : List Node) : Json := (Json.arr (forestJson nodes)).without clockNames

end Node

namespace Step

/-- a step without its clocks and without a type -/
def timelessJson (s : Step) : Json :=
  match s.toNode.toJson.without clockNames with
  | .obj members => .obj (members.filter fun m => m.1 != "type")
  | j => j

end Step

namespace ResultMap

/-- results in the order of their methods, those of one method by retry number -/
def sorted (m : ResultMap) : ResultMap :=
  ⟨m.results.mergeSort fun a b =>
    decide (a.method < b.method) || (a.method == b.method && decide (a.retry ≤ b.retry))⟩

end ResultMap

namespace ContextReport

def timelessJson (r : ContextReport) : Json :=
  { r with passed := r.passed.sorted, failed := r.failed.sorted, skipped := r.skipped.sorted }.toJson.without
    (clockNames ++ resultClockNames)

end ContextReport

namespace ContextState

def timelessJson (s : ContextState) : Json :=
  { s with passed := s.passed.sorted, failed := s.failed.sorted, skipped := s.skipped.sorted }.toJson.without
    resultClockNames

end ContextState

end TestTrail
