/-
Step trees: what a test did, as recorded.

A tree is a list of nodes in the order of recording. A node is a step around other nodes, an action, or a message.
`StepHead` holds everything of a step but its children; a `Step` is a head with the children recorded so far, the form of
steps that are still open. `hasException` looks at a node and everything below it. A failure is put on a step by
`Step.fail`: the step is marked as failed, and it keeps the exception only when nothing in or below it has one.
-/
import TestTrail.Element
import TestTrail.Failure
import TestTrail.Operation
import TestTrail.Timestamp

namespace TestTrail

/-- how serious a message is -/
inductive Level where
  | info
  | log
  | warning
  | error
  deriving DecidableEq, Repr

/-- a file shown with a step -/
structure Attachment where
  label : String
  path : String
  deriving DecidableEq, Repr

structure Action where
  name : String
  actionId : String
  origin : Option String := none
  element : Option Element := none
  failed : Bool := false
  exception : Option RecordedFailure := none
  timestamp : Timestamp
  deriving DecidableEq, Repr

structure Message where
  text : String
  level : Level
  timestamp : Timestamp
  deriving DecidableEq, Repr

/-- a step without its children -/
structure StepHead where
  name : String
  actionId : String
  origin : Option String := none
  element : Option Element := none
  failed : Bool := false
  exception : Option RecordedFailure := none
  rootCause : RootCause := .none
  rootCauseDetails : Option String := none
  attachments : List Attachment := []
  position : Option Nat := none
  startedAt : Timestamp
  durationMs : Nat := 0
  deriving DecidableEq, Repr

inductive Node where
  | step (head : StepHead) (children : List Node)
  | action (a : Action)
  | message (m : Message)
  deriving BEq, Repr

/-- a step that is still open -/
structure Step where
  head : StepHead
  children : List Node := []
  deriving BEq, Repr

namespace Action

/-- marks an action as failed, with or without a failure to show -/
def failedWith (a : Action) (f : Option Failure) : Action :=
  { a with failed := true, exception := f.map Failure.recorded }

end Action

namespace Node

/-- name of a step or action, text of a message -/
def name : Node → String
  | step h _ => h.name
  | action a => a.name
  | message m => m.text

def failed : Node → Bool
  | step h _ => h.failed
  | action a => a.failed
  | message _ => false

/-- the exception on the node itself -/
def exception : Node → Option RecordedFailure
  | step h _ => h.exception
  | action a => a.exception
  | message _ => none

def children : Node → List Node
  | step _ cs => cs
  | _ => []

def toStep? : Node → Option Step
  | step h cs => some ⟨h, cs⟩
  | _ => none

def toAction? : Node → Option Action
  | action a => some a
  | _ => none

def toMessage? : Node → Option Message
  | message m => some m
  | _ => none

mutual

/-- the node or one below it has an exception -/
def hasException : Node → Bool
  | step h cs => h.exception.isSome || anyException cs
  | action a => a.exception.isSome
  | message _ => false

def anyException : List Node → Bool
  | [] => false
  | n :: ns => n.hasException || anyException ns

end

mutual

/-- the files of a step and of the steps below it, depth first -/
def attachments : Node → List Attachment
  | step h cs => h.attachments ++ forestAttachments cs
  | action _ => []
  | message _ => []

def forestAttachments : List Node → List Attachment
  | [] => []
  | n :: ns => n.attachments ++ forestAttachments ns

end

end Node

namespace Step

/-- an empty step -/
def new (name actionId : String) (now : Timestamp) : Step :=
  { head := { name := name, actionId := actionId, startedAt := now } }

def toNode (s : Step) : Node := .step s.head s.children

def hasException (s : Step) : Bool := s.head.exception.isSome || Node.anyException s.children

/-- marks a step as failed without an exception of its own -/
def markFailed (s : Step) : Step := { s with head := { s.head with failed := true } }

/-- marks a step as failed; the exception stays with the innermost node that has one -/
def fail (s : Step) (e : Option RecordedFailure) : Step :=
  match e with
  | none => s.markFailed
  | some e =>
    if s.hasException then s.markFailed
    else { s with head := { s.head with failed := true, exception := some e } }

/-- the action that stands for a step without children -/
def toAction (s : Step) : Action :=
  { name := s.head.name, actionId := s.head.actionId, origin := s.head.origin, element := s.head.element,
    failed := s.head.failed, exception := s.head.exception, timestamp := s.head.startedAt }

def subSteps (s : Step) : List Step := s.children.filterMap Node.toStep?

def actions (s : Step) : List Action := s.children.filterMap Node.toAction?

def messages (s : Step) : List Message := s.children.filterMap Node.toMessage?

def allAttachments (s : Step) : List Attachment := s.toNode.attachments

end Step

end TestTrail
