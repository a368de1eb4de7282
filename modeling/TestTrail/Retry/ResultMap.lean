/-
Results of test executions and the maps a runner keeps them in.

A result is identified by its method, the time it ended and its retry number. A map holds one result per key in order of
first use: adding a result with a known key replaces the old one where it stands.
-/
import TestTrail.Failure

namespace TestTrail

inductive TestStatus where
  | success
  | failure
  | skip
  deriving DecidableEq, Repr

/-- one execution of a test method -/
structure TestResult where
  method : String
  context : String
  status : TestStatus
  retry : UInt32
  startMillis : Int64
  endMillis : Int64
  error : Option RecordedFailure := none
  noMoreRetry : Bool := false
  deriving DecidableEq, Repr

structure ResultKey where
  method : String
  endMillis : Int64
  retry : UInt32
  deriving DecidableEq, Repr

def TestResult.key (r : TestResult) : ResultKey := ⟨r.method, r.endMillis, r.retry⟩

structure ResultMap where
  results : List TestResult := []
  deriving DecidableEq, Repr

namespace ResultMap

def addTo (result : TestResult) : List TestResult → List TestResult
  | [] => [result]
  | r :: rest => if r.key = result.key then result :: rest else r :: addTo result rest

/-- a result with a new key comes last -/
theorem addTo_of_new (result : TestResult) (rs : List TestResult) (h : ∀ r ∈ rs, r.key ≠ result.key) :
    addTo result rs = rs ++ [result] := by
  induction rs with
  | nil => rfl
  | cons r rs ih =>
    have hr : r.key ≠ result.key := h r List.mem_cons_self
    rw [addTo, if_neg hr, ih fun x hx => h x (List.mem_cons_of_mem r hx)]
    rfl

/-- a result with a known key stands where the old one stood -/
theorem addTo_of_known (result : TestResult) (rs : List TestResult) (hn : (rs.map TestResult.key).Nodup)
    (h : ∃ r ∈ rs, r.key = result.key) :
    addTo result rs = rs.map fun r => if r.key = result.key then result else r := by
  induction rs with
  | nil => exact absurd h (by simp)
  | cons r rs ih =>
    rw [List.map_cons, List.nodup_cons] at hn
    rw [addTo, List.map_cons]
    by_cases hr : r.key = result.key
    · have hrest : ∀ x ∈ rs, x.key ≠ result.key := by
        intro x hx hk
        exact hn.1 (List.mem_map.2 ⟨x, hx, hk.trans hr.symm⟩)
      rw [if_pos hr, if_pos hr, List.map_congr_left fun x hx => if_neg (hrest x hx), List.map_id']
    · have hlater : ∃ x ∈ rs, x.key = result.key := by
        obtain ⟨x, hx, hk⟩ := h
        rcases List.mem_cons.1 hx with rfl | hx
        · exact absurd hk hr
        · exact ⟨x, hx, hk⟩
      rw [if_neg hr, if_neg hr, ih hn.2 hlater]

def add (m : ResultMap) (result : TestResult) : ResultMap := ⟨addTo result m.results⟩

def removeMethod (m : ResultMap) (method : String) : ResultMap := ⟨m.results.filter fun r => r.method != method⟩

/-- takes the results of a method out of the map, and counts them -/
def takeMethod (m : ResultMap) (method : String) : ResultMap × Nat :=
  let rest := m.removeMethod method
  (rest, m.results.length - rest.results.length)

/-- the map of the results that pass, and those that do not -/
def retain (m : ResultMap) (keep : TestResult → Bool) : ResultMap × List TestResult :=
  (⟨m.results.filter keep⟩, m.results.filter fun r => !keep r)

def containsMethod (m : ResultMap) (method : String) : Bool := m.results.any fun r => r.method == method

def containsKey (m : ResultMap) (key : ResultKey) : Bool := m.results.any fun r => r.key == key

/-- the methods in order of their first result -/
def methodsFrom (seen : List String) : List TestResult → List String
  | [] => seen
  | r :: rest => methodsFrom (if seen.contains r.method then seen else seen ++ [r.method]) rest

def methods (m : ResultMap) : List String := methodsFrom [] m.results

def size (m : ResultMap) : Nat := m.results.length

def isEmpty (m : ResultMap) : Bool := m.results.isEmpty

end ResultMap

/-- the results of a context as the runner files them -/
structure NativeResults where
  context : String
  passed : ResultMap := {}
  failed : ResultMap := {}
  skipped : ResultMap := {}
  deriving DecidableEq, Repr

end TestTrail
