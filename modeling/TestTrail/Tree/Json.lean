/-
Step trees in JSON.

A node is an object whose member `type` tells what it is. What is not set is left out; the root cause, the children and
the files of a step always stand there. Below the outermost node values are read ahead, so there a type may also be given
by its number. The depth of the JSON value bounds the depth of the tree.
-/
import TestTrail.Element.Json
import TestTrail.Failure.Json
import TestTrail.Operation.Json
import TestTrail.Tree

namespace TestTrail

open TestTrail.Json (present required orElse optional)

namespace Timestamp

def toJson (t : Timestamp) : Json := .str t.write

def ofJson? (j : Json) : Option Timestamp := j.toString?.bind read?

end Timestamp

namespace Level

def all : List Level := [info, log, warning, error]

def tag : Level → String
  | info => "info"
  | log => "log"
  | warning => "warning"
  | error => "error"

def toJson (l : Level) : Json := .str l.tag

def ofJson? (buffered : Bool) (j : Json) : Option Level := Json.oneOf? buffered tag all j

end Level

namespace Attachment

def toJson (a : Attachment) : Json := .obj [("label", .str a.label), ("path", .str a.path)]

def ofJson? (j : Json) : Option Attachment :=
  match j.fields? ["label", "path"] with
  | some [label, path] => do
    let label ← required label Json.toString?
    let path ← required path Json.toString?
    some ⟨label, path⟩
  | _ => none

end Attachment

namespace Action

def members (a : Action) : List (String × Json) :=
  [("name", .str a.name), ("action_id", .str a.actionId)] ++ present "origin" .str a.origin ++
    present "element" Element.toJson a.element ++ [("failed", .bool a.failed)] ++
    present "exception" RecordedFailure.toJson a.exception ++ [("timestamp", a.timestamp.toJson)]

def ofJson? (j : Json) : Option Action :=
  match j.fields? ["name", "action_id", "origin", "element", "failed", "exception", "timestamp"] with
  | some [name, actionId, origin, element, failed, exception, timestamp] => do
    let name ← required name Json.toString?
    let actionId ← required actionId Json.toString?
    let origin ← optional origin Json.toString?
    let element ← optional element Element.ofJson?
    let failed ← required failed Json.toBool?
    let exception ← optional exception RecordedFailure.ofJson?
    let timestamp ← required timestamp Timestamp.ofJson?
    some
      { name := name, actionId := actionId, origin := origin, element := element, failed := failed
        exception := exception, timestamp := timestamp }
  | _ => none

end Action

namespace Message

def members (m : Message) : List (String × Json) :=
  [("text", .str m.text), ("message_type", m.level.toJson), ("timestamp", m.timestamp.toJson)]

def ofJson? (j : Json) : Option Message :=
  match j.fields? ["text", "message_type", "timestamp"] with
  | some [text, level, timestamp] => do
    let text ← required text Json.toString?
    let level ← required level (Level.ofJson? true)
    let timestamp ← required timestamp Timestamp.ofJson?
    some ⟨text, level, timestamp⟩
  | _ => none

end Message

namespace Node

/-- the members of a step in front of its children -/
def headMembers (h : StepHead) : List (String × Json) :=
  [("name", .str h.name), ("action_id", .str h.actionId)] ++ present "origin" .str h.origin ++
    present "element" Element.toJson h.element ++ [("failed", .bool h.failed)] ++
    present "exception" RecordedFailure.toJson h.exception ++ [("root_cause", h.rootCause.toJson)] ++
    present "root_cause_details" .str h.rootCauseDetails

/-- the members of a step behind its children -/
def tailMembers (h : StepHead) : List (String × Json) :=
  [("attachments", .arr (h.attachments.map Attachment.toJson))] ++
    present "position" (fun n => .int (Int.ofNat n)) h.position ++
    [("started_at", h.startedAt.toJson), ("duration_ms", .int h.durationMs)]

mutual

def toJson : Node → Json
  | step h children =>
    .obj (("type", .str "step") :: (headMembers h ++ ("children", .arr (forestJson children)) :: tailMembers h))
  | action a => .obj (("type", .str "action") :: a.members)
  | message m => .obj (("type", .str "message") :: m.members)

def forestJson : List Node → List Json
  | [] => []
  | n :: ns => n.toJson :: forestJson ns

end

def typeTags : List String := ["step", "action", "message"]

def stepFieldNames : List String :=
  ["name", "action_id", "origin", "element", "failed", "exception", "root_cause", "root_cause_details", "children",
    "attachments", "position", "started_at", "duration_ms"]

/-- a step, with a reader for its children -/
def stepOfJson? (readChild : Json → Option Node) (j : Json) : Option Node :=
  match j.fields? stepFieldNames with
  | some [name, actionId, origin, element, failed, exception, rootCause, rootCauseDetails, children, attachments,
      position, startedAt, durationMs] => do
    let name ← required name Json.toString?
    let actionId ← required actionId Json.toString?
    let origin ← optional origin Json.toString?
    let element ← optional element Element.ofJson?
    let failed ← required failed Json.toBool?
    let exception ← optional exception RecordedFailure.ofJson?
    let rootCause ← orElse rootCause (RootCause.ofJson? true) .none
    let rootCauseDetails ← optional rootCauseDetails Json.toString?
    let children ← orElse children (Json.toList? readChild) []
    let attachments ← orElse attachments (Json.toList? Attachment.ofJson?) []
    let position ← optional position Json.toNat?
    let startedAt ← required startedAt Timestamp.ofJson?
    let durationMs ← orElse durationMs Json.toNat? 0
    let head : StepHead :=
      { name := name, actionId := actionId, origin := origin, element := element, failed := failed
        exception := exception, rootCause := rootCause, rootCauseDetails := rootCauseDetails
        attachments := attachments, position := position, startedAt := startedAt, durationMs := durationMs }
    some (.step head children)
  | _ => none

/-- reads a node whose JSON value has at most this depth -/
def ofJsonWithin : Nat → Bool → Json → Option Node
  | 0, _, _ => none
  | depth + 1, nested, j =>
    match j.tagged? "type" nested typeTags with
    | some (tag, fields) =>
      if tag = "step" then stepOfJson? (ofJsonWithin depth true) fields
      else if tag = "action" then (Action.ofJson? fields).map .action
      else (Message.ofJson? fields).map .message
    | none => none

def ofJson? (j : Json) : Option Node := ofJsonWithin j.depth false j

end Node

end TestTrail
