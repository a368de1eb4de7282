/-
Operations: what a suite declares about the calls its tests make.

A step operation is a page method and opens a step around other calls. An action is one driver call. A composite is a
batch performed as one unit. Unless it says otherwise, an operation is replayed on transient failures exactly when it is
no step. The registry knows one operation per id, the one declared last.
-/

namespace TestTrail

inductive OperationKind where
  | step
  | action
  | composite
  deriving DecidableEq, Repr

/-- what a failure of a step points at -/
inductive RootCause where
  | none
  | regression
  | environment
  | script
  | data
  | unknown
  deriving DecidableEq, Repr

structure Operation where
  id : String
  kind : OperationKind
  template : Option String := none
  scenarioText : Option String := none
  maskedParams : List String := []
  rootCause : RootCause := .none
  rootCauseDetails : Option String := none
  replay : Bool
  deriving DecidableEq, Repr

namespace Operation

/-- an operation with the defaults of its kind -/
def ofKind (id : String) (kind : OperationKind) : Operation :=
  { id := id, kind := kind, replay := kind != .step }

def withTemplate (op : Operation) (template : String) : Operation := { op with template := some template }

def withScenarioText (op : Operation) (text : String) : Operation := { op with scenarioText := some text }

def masking (op : Operation) (param : String) : Operation := { op with maskedParams := op.maskedParams ++ [param] }

def withRootCause (op : Operation) (cause : RootCause) (details : Option String) : Operation :=
  { op with rootCause := cause, rootCauseDetails := details }

def withoutReplay (op : Operation) : Operation := { op with replay := false }

/-- whether the first text occurs in the second -/
def occursIn (part : List Char) : List Char → Bool
  | [] => part.isEmpty
  | c :: cs => part.isPrefixOf (c :: cs) || occursIn part cs

/-- passwords are masked under any spelling, other parameters when the operation lists them -/
def isMasked (op : Operation) (param : String) : Bool :=
  let lower := param.toList.map Char.toLower
  occursIn "password".toList lower || lower == "pwd".toList || op.maskedParams.contains param

end Operation

/-- the operations of a suite, one per id -/
structure Registry where
  operations : List Operation := []
  deriving DecidableEq, Repr

namespace Registry

/-- adds an operation in place of any other with its id -/
def register (r : Registry) (op : Operation) : Registry :=
  ⟨r.operations.filter (fun o => o.id != op.id) ++ [op]⟩

def ofList (ops : List Operation) : Registry := ops.foldl register {}

def get? (r : Registry) (id : String) : Option Operation := r.operations.find? fun o => o.id == id

def size (r : Registry) : Nat := r.operations.length

theorem find?_others (op : Operation) (id : String) (ops : List Operation) :
    (ops.filter fun o => o.id != op.id).find? (fun o => o.id == id) =
      if op.id = id then none else ops.find? fun o => o.id == id := by
  induction ops with
  | nil => simp
  | cons o ops ih =>
    by_cases ho : o.id = op.id
    · rw [List.filter_cons_of_neg (by simp [ho]), ih]
      by_cases hi : op.id = id
      · simp [hi]
      · have hne : (o.id == id) = false := by simp [ho, hi]
        simp [hi, hne]
    · rw [List.filter_cons_of_pos (by simp [ho]), List.find?_cons, ih]
      by_cases hi : op.id = id
      · have hne : (o.id == id) = false := by
          simp only [beq_eq_false_iff_ne]; intro h; exact ho (h.trans hi.symm)
        simp [hne, hi]
      · simp [hi, List.find?_cons]

theorem get?_register (r : Registry) (op : Operation) (id : String) :
    (r.register op).get? id = if op.id = id then some op else r.get? id := by
  simp only [get?, register, List.find?_append, find?_others, List.find?_cons, List.find?_nil]
  by_cases h : op.id = id
  · simp [h]
  · have : (op.id == id) = false := by simp [h]
    simp [h, this]

end Registry

end TestTrail
