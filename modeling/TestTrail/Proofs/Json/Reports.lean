/-
Reports, written and read again.

A report holds results, and step trees of any depth (`TestTrail.Proofs.Json.Trees`). Numbers of 32 and 64 bits, moments,
tags and missing errors are read as they were written, so a report is read back as it was (`report_survives`).
-/
import TestTrail.Proofs.Json.Trees
import TestTrail.Report.Json

namespace TestTrail

open TestTrail.Json (row fields?_row optional_map toList?_map)

@[simp] theorem TestStatus.ofJson?_tag (s : TestStatus) : ofJson? (.str s.tag) = some s := by
  cases s <;> rfl

@[simp] theorem MethodState.ofJson?_tag (s : MethodState) : ofJson? (.str s.tag) = some s := by
  cases s <;> rfl

/-! ## Results -/

namespace TestResult

def fields (r : TestResult) : List (String × Option Json) :=
  [("method", some (.str r.method)), ("context", some (.str r.context)), ("status", some (.str r.status.tag)),
    ("retry", some (.int r.retry.toNat)), ("start_millis", some (.int r.startMillis.toInt)),
    ("end_millis", some (.int r.endMillis.toInt)), ("error", r.error.map RecordedFailure.toJson),
    ("no_more_retry", some (.bool r.noMoreRetry))]

theorem toJson_eq (r : TestResult) : r.toJson = .obj (row r.fields) := by
  simp [toJson, fields]

@[simp] theorem ofJson?_toJson (r : TestResult) : ofJson? r.toJson = some r := by
  rw [toJson_eq, ofJson?, fields?_row (by rfl) (by simp [fieldNames])]
  simp [fields]

end TestResult

@[simp] theorem ResultMap.ofJson?_toJson (m : ResultMap) : ofJson? m.toJson = some m := by
  rw [ofJson?, toJson, toList?_map m.results fun r _ => r.ofJson?_toJson]
  rfl

/-! ## Reports -/

namespace MethodReport

def fields (r : MethodReport) : List (String × Option Json) :=
  [("method", some (.str r.method)), ("state", some (.str r.state.tag)), ("status", some (.str r.status.tag)),
    ("attempts", some (.int r.attempts.toNat)), ("error", r.error.map RecordedFailure.toJson),
    ("steps", some (.arr (Node.forestJson r.steps)))]

theorem toJson_eq (r : MethodReport) : r.toJson = .obj (row r.fields) := by
  simp [toJson, fields]

@[simp] theorem ofJson?_toJson (r : MethodReport) : ofJson? r.toJson = some r := by
  have hsteps : Json.toList? Node.ofJson? (.arr (Node.forestJson r.steps)) = some r.steps := by
    rw [Node.forestJson_eq]
    exact toList?_map r.steps fun n _ => n.ofJson?_toJson
  rw [toJson_eq, ofJson?, fields?_row (by rfl) (by simp)]
  simp [fields, hsteps]

end MethodReport

namespace ContextReport

def fields (r : ContextReport) : List (String × Option Json) :=
  [("context", some (.str r.context)), ("started_at", some r.startedAt.toJson),
    ("duration_ms", some (.int r.durationMs)), ("passed", some r.passed.toJson), ("failed", some r.failed.toJson),
    ("skipped", some r.skipped.toJson), ("methods", some (.arr (r.methods.map MethodReport.toJson)))]

/-- **A report is read back from its JSON value.** Whatever its results and trees are, however deep these go and
whichever of their fields are set, its JSON value is read as the same report. -/
theorem report_survives (r : ContextReport) : ofJson? r.toJson = some r := by
  have hmethods : Json.toList? MethodReport.ofJson? (.arr (r.methods.map MethodReport.toJson)) = some r.methods :=
    toList?_map r.methods fun m _ => m.ofJson?_toJson
  have hfields : r.toJson = .obj (row r.fields) := rfl
  rw [hfields, ofJson?, fields?_row (by rfl) (by simp)]
  simp [fields, hmethods]

/-- the report of a checkout whose payment failed in the last second of a leap year, inside two steps -/
def lateCheckout : ContextReport :=
  let leap : Timestamp :=
    { year := 2016, month := 12, day := 31, hour := 23, minute := 59, second := 60, nanos := 250000000 }
  let broken : RecordedFailure := ⟨"stale", "pay"⟩
  let click : Node :=
    .action
      { name := "click", actionId := "click"
        element := some { label := "Pay", locator := "#pay", frame := some "main" }
        failed := true, exception := some broken, timestamp := leap }
  let inner : Node :=
    .step { name := "pay", actionId := "pay", failed := true, position := some 0, startedAt := leap } [click]
  let result : TestResult :=
    { method := "buy", context := "shop", status := .failure, retry := 1, startMillis := -5, endMillis := 7
      error := some broken }
  { context := "shop", startedAt := { year := -44, month := 3, day := 15 }, durationMs := 12, passed := {}
    failed := ⟨[result]⟩, skipped := {}
    methods :=
      [{ method := "buy", state := .failedFinal, status := .failure, attempts := 2, error := some broken
         steps :=
          [.step { name := "checkout", actionId := "checkout", rootCause := .data, startedAt := leap }
            [inner, .message ⟨"no receipt", .warning, leap⟩]] }] }

theorem lateCheckout_survives : ofJson? lateCheckout.toJson = some lateCheckout := report_survives lateCheckout

end ContextReport

end TestTrail
