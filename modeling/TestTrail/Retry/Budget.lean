/-
How often a test may be executed again.

A budget counts the retries it granted and has a maximum, which may be raised by one at a time up to twice its first value,
but at least to two. Numbers have 32 bits, and a maximum has a budget only if twice the maximum fits them. Failed
assertions, failures of the application itself and missing grid nodes are never retried, nor is a result that says so.
-/
import TestTrail.Retry.ResultMap
import TestTrail.Word

namespace TestTrail

structure Budget where
  count : UInt32
  max : UInt32
  cap : UInt32
  deriving DecidableEq, Repr

namespace Budget

/-- the budget with a first maximum; there is none when twice the maximum does not fit -/
def ofMax? (max : UInt32) : Option Budget :=
  if 2 * max.toNat < Word.limit32 then some ⟨0, max, if max * 2 < 2 then 2 else max * 2⟩ else none

/-- a budget that grants nothing -/
def empty : Budget := ⟨0, 0, 0⟩

/-- kinds of failures that a retry does not mend -/
def finalKinds : List String :=
  [FailureKind.assertion.tag, FailureKind.application.tag, FailureKind.gridNodeUnavailable.tag]

def mayMend (error : Option RecordedFailure) : Bool :=
  match error with
  | some e => !finalKinds.contains e.kind
  | none => true

/-- whether a retry would be granted for this result -/
def grants (b : Budget) (r : TestResult) : Bool := mayMend r.error && !r.noMoreRetry && decide (b.count < b.max)

/-- takes a retry out of the budget, if one is granted -/
def take (b : Budget) (r : TestResult) : Bool × Budget :=
  if b.grants r then (true, { b with count := b.count + 1 }) else (false, b)

/-- what can be said from the result's own retry number -/
def willBeRetried (b : Budget) (r : TestResult) : Bool := !r.noMoreRetry && decide (r.retry < b.max)

def raise (b : Budget) : Budget := if b.max < b.cap then { b with max := b.max + 1 } else b

end Budget

end TestTrail
