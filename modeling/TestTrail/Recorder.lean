/-
The recorder of one test: closed nodes, open steps, and the operations on them.

Open steps are a stack beside the tree, innermost first. A step joins the tree when it closes: it becomes the last child
of the step around it, or the last root. A step inside another one that closes without children becomes an action.
Failures go outward: whatever fails, every step around it is failed too, and the exception stays with the innermost node
that has one. Root steps are numbered in the order of opening.

Names and messages are masked when they are recorded, with the secrets registered so far; a secret registered later
masks the names of the open steps once more.

`checkpoint` notes how far the record has come; `rollback` takes off what was recorded since, together with the failure
marks it left on the open steps. Registered secrets stay.
-/
import TestTrail.Text.Mask
import TestTrail.Tree

namespace TestTrail

open TestTrail.Text

structure Recorder where
  roots : List Node := []
  /-- innermost first -/
  openSteps : List Step := []
  rootPositions : Nat := 0
  secrets : List String := []
  maskEnabled : Bool := true
  now : Timestamp
  deriving BEq

namespace Recorder

/-- the name of the step that closes every test -/
def endName : String := "Test end"

/-- shorter secrets are refused: they would mask too much -/
def minSecretLength : Nat := 6

def masked (r : Recorder) (text : String) : String := maskWhen r.maskEnabled r.secrets text

/-- puts a node at the end of the innermost open step, or of the roots -/
def attach (r : Recorder) (n : Node) : Recorder :=
  match r.openSteps with
  | [] => { r with roots := r.roots ++ [n] }
  | s :: rest => { r with openSteps := { s with children := s.children ++ [n] } :: rest }

/-- marks every open step as failed -/
def failOpenSteps (r : Recorder) : Recorder := { r with openSteps := r.openSteps.map Step.markFailed }

/-- opens a step inside the innermost open one, or as the next root -/
def openStep (r : Recorder) (s : Step) : Recorder :=
  let head := { s.head with name := r.masked s.head.name }
  match r.openSteps with
  | [] =>
    { r with
      openSteps := [{ s with head := { head with position := some r.rootPositions } }]
      rootPositions := r.rootPositions + 1 }
  | _ :: _ => { r with openSteps := { s with head := head } :: r.openSteps }

/-- a step as it is after closing with an outcome -/
def settle (s : Step) (outcome : Option Failure) : Step :=
  match outcome with
  | some f => s.fail (some f.recorded)
  | none => s

/-- the node of a closed step; `outer` are the steps around it -/
def closedNode (s : Step) (outer : List Step) : Node :=
  if !outer.isEmpty && s.children.isEmpty then .action s.toAction else s.toNode

/-- closes the innermost open step, if there is one -/
def closeStep (r : Recorder) (outcome : Option Failure) : Recorder :=
  match r.openSteps with
  | [] => r
  | s :: outer =>
    let timed := { s with head := { s.head with durationMs := s.head.startedAt.millisUntil r.now } }
    let closed := settle timed outcome
    let outer := if closed.head.failed then outer.map Step.markFailed else outer
    attach { r with openSteps := outer } (closedNode closed outer)

def recordAction (r : Recorder) (a : Action) : Recorder :=
  let a := { a with name := r.masked a.name }
  attach (if a.failed then r.failOpenSteps else r) (.action a)

def recordMessage (r : Recorder) (text : String) (level : Level) : Recorder :=
  attach r (.message ⟨r.masked text, level, r.now⟩)

/-- adds a file to the last step of a forest, if it has a step -/
def attachToLastStep (a : Attachment) : List Node → Option (List Node)
  | [] => none
  | n :: ns =>
    match attachToLastStep a ns with
    | some ns => some (n :: ns)
    | none =>
      match n with
      | .step h cs => some (.step { h with attachments := h.attachments ++ [a] } cs :: ns)
      | _ => none

/-- adds a file to the innermost open step, else to the last root step; there may be neither -/
def attachFile? (r : Recorder) (a : Attachment) : Option Recorder :=
  match r.openSteps with
  | s :: outer =>
    some { r with
      openSteps := { s with head := { s.head with attachments := s.head.attachments ++ [a] } } :: outer }
  | [] => (attachToLastStep a r.roots).map fun roots => { r with roots := roots }

def attachFile (r : Recorder) (a : Attachment) : Recorder := (r.attachFile? a).getD r

/-- puts a failure on the innermost open step -/
def failCurrent (r : Recorder) (failure : Option Failure) : Recorder :=
  match r.openSteps with
  | [] => r
  | s :: outer => failOpenSteps { r with openSteps := s.fail (failure.map Failure.recorded) :: outer }

def closeTimes : Nat → Recorder → Recorder
  | 0, r => r
  | n + 1, r => closeTimes n (r.closeStep none)

/-- closes every open step -/
def closeAll (r : Recorder) : Recorder := closeTimes r.openSteps.length r

/-- closes every open step and opens a root step of this name -/
def addStep (r : Recorder) (name : String) : Recorder :=
  let r := r.closeAll
  r.openStep (.new name name r.now)

def acceptsSecret (value : String) : Bool := decide (minSecretLength ≤ value.length)

/-- registers a secret that is long enough -/
def addSecret (r : Recorder) (value : String) : Recorder :=
  if acceptsSecret value then
    let secrets := if r.secrets.contains value then r.secrets else r.secrets ++ [value]
    let remask (s : Step) : Step := { s with head := { s.head with name := mask secrets s.head.name } }
    { r with secrets := secrets, openSteps := if r.maskEnabled then r.openSteps.map remask else r.openSteps }
  else r

/-- the text of the closing message -/
def verdict (failure : Option Failure) : String :=
  match failure with
  | some f => "Test is KO with error: " ++ f.describe
  | none => "Test is OK"

/-- closes every open step and records the closing step with the verdict -/
def finish (r : Recorder) (failure : Option Failure) (screenshot : Option Attachment) : Recorder :=
  let r := r.closeAll
  let head : StepHead :=
    { name := endName, actionId := endName, failed := failure.isSome, attachments := screenshot.toList,
      position := some r.rootPositions, startedAt := r.now }
  let level := if failure.isSome then Level.error else Level.log
  let message : Message := ⟨r.masked (verdict failure), level, r.now⟩
  { r with roots := r.roots ++ [.step head [.message message]], rootPositions := r.rootPositions + 1 }

/-- closes every open step and hands over the roots; numbering starts again -/
def takeSteps (r : Recorder) : List Node × Recorder :=
  let r := r.closeAll
  (r.roots, { r with roots := [], rootPositions := 0 })

/-! ## Checkpoints -/

/-- what a checkpoint notes of an open step -/
structure OpenState where
  childCount : Nat
  failed : Bool
  exception : Option RecordedFailure
  deriving DecidableEq, Repr

structure Checkpoint where
  rootCount : Nat
  rootPositions : Nat
  /-- outermost first -/
  openStates : List OpenState
  deriving DecidableEq, Repr

def noteStep (s : Step) : OpenState := ⟨s.children.length, s.head.failed, s.head.exception⟩

def checkpoint (r : Recorder) : Checkpoint := ⟨r.roots.length, r.rootPositions, r.openSteps.reverse.map noteStep⟩

def restoreStep (s : Step) (note : OpenState) : Step :=
  { head := { s.head with failed := note.failed, exception := note.exception }
    children := s.children.take note.childCount }

/-- back to a checkpoint: steps opened since are dropped, the others lose what was added to them -/
def rollback (r : Recorder) (c : Checkpoint) : Recorder :=
  { r with
    openSteps := (List.zipWith restoreStep r.openSteps.reverse c.openStates).reverse
    roots := r.roots.take c.rootCount
    rootPositions := c.rootPositions }

/-! ## Views -/

def depth (r : Recorder) : Nat := r.openSteps.length

/-- the innermost open step -/
def current? (r : Recorder) : Option Step := r.openSteps.head?

/-- the outermost open step -/
def currentRoot? (r : Recorder) : Option Step := r.openSteps.getLast?

/-- the last closed root step -/
def previous? (r : Recorder) : Option Step := (r.roots.filterMap Node.toStep?).getLast?

def currentOrPrevious? (r : Recorder) : Option Step := r.currentRoot?.or r.previous?

/-- the closing step, once the test is finished -/
def lastTestStep? (r : Recorder) : Option Step := r.previous?.filter fun s => s.head.name == endName

end Recorder

end TestTrail
