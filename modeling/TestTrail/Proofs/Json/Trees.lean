/-
Step trees, written and read again.

Each part of a node is read back from what it writes, and so is a node by every reader that may go as deep as its JSON
value does, on top of a tree as well as below, where values were read ahead (`Node.ofJsonWithin_toJson`).
-/
import TestTrail.Proofs.Json.Fields
import TestTrail.Proofs.Text.Moments
import TestTrail.Tree.Json

namespace TestTrail

open TestTrail.Json (row fields?_row tagged?_row optional_map toList?_map)

/-! ## The parts of a node -/

namespace Element

def fields (e : Element) : List (String × Option Json) :=
  [("label", some (.str e.label)), ("locator", some (.str e.locator)), ("frame", e.frame.map .str)]

theorem toJson_eq (e : Element) : e.toJson = .obj (row e.fields) := by
  simp [toJson, fields]

@[simp] theorem ofJson?_toJson (e : Element) : ofJson? e.toJson = some e := by
  rw [toJson_eq, ofJson?, fields?_row (by rfl) (by simp)]
  simp [fields]

@[simp] theorem optional_toJson (e : Option Element) : Json.optional (e.map toJson) ofJson? = some e :=
  optional_map ofJson?_toJson (fun _ => Json.noConfusion) e

end Element

namespace RecordedFailure

def fields (f : RecordedFailure) : List (String × Option Json) :=
  [("kind", some (.str f.kind)), ("message", some (.str f.message))]

@[simp] theorem ofJson?_toJson (f : RecordedFailure) : ofJson? f.toJson = some f := by
  have hfields : f.toJson = .obj (row f.fields) := rfl
  rw [hfields, ofJson?, fields?_row (by rfl) (by simp)]
  simp [fields]

@[simp] theorem optional_toJson (f : Option RecordedFailure) : Json.optional (f.map toJson) ofJson? = some f :=
  optional_map ofJson?_toJson (fun _ => Json.noConfusion) f

end RecordedFailure

@[simp] theorem Level.ofJson?_toJson (buffered : Bool) (l : Level) : Level.ofJson? buffered l.toJson = some l := by
  cases l <;> rfl

@[simp] theorem RootCause.ofJson?_toJson (buffered : Bool) (c : RootCause) :
    RootCause.ofJson? buffered c.toJson = some c := by
  cases c <;> rfl

@[simp] theorem Timestamp.ofJson?_toJson (t : Timestamp) : ofJson? t.toJson = some t := by
  rw [toJson, ofJson?, Json.toString?_str, Option.bind_some, read?_write]

@[simp] theorem Attachment.ofJson?_toJson (a : Attachment) : ofJson? a.toJson = some a := by
  have hfields : a.toJson = .obj (row [("label", some (.str a.label)), ("path", some (.str a.path))]) := rfl
  rw [hfields, ofJson?, fields?_row (by rfl) (by simp)]
  simp

namespace Action

def fields (a : Action) : List (String × Option Json) :=
  [("name", some (.str a.name)), ("action_id", some (.str a.actionId)), ("origin", a.origin.map .str),
    ("element", a.element.map Element.toJson), ("failed", some (.bool a.failed)),
    ("exception", a.exception.map RecordedFailure.toJson), ("timestamp", some a.timestamp.toJson)]

theorem members_eq (a : Action) : a.members = row a.fields := by
  simp [members, fields]

theorem ofJson?_fields (a : Action) : ofJson? (.obj (row a.fields)) = some a := by
  rw [ofJson?, fields?_row (by rfl) (by simp)]
  simp [fields]

end Action

namespace Message

def fields (m : Message) : List (String × Option Json) :=
  [("text", some (.str m.text)), ("message_type", some m.level.toJson), ("timestamp", some m.timestamp.toJson)]

theorem members_eq (m : Message) : m.members = row m.fields := rfl

theorem ofJson?_fields (m : Message) : ofJson? (.obj (row m.fields)) = some m := by
  rw [ofJson?, fields?_row (by rfl) (by simp)]
  simp [fields]

end Message

/-! ## Nodes -/

namespace Node

def tag : Node → String
  | step _ _ => "step"
  | action _ => "action"
  | message _ => "message"

def fields : Node → List (String × Option Json)
  | step h children =>
    [("name", some (.str h.name)), ("action_id", some (.str h.actionId)), ("origin", h.origin.map .str),
      ("element", h.element.map Element.toJson), ("failed", some (.bool h.failed)),
      ("exception", h.exception.map RecordedFailure.toJson), ("root_cause", some h.rootCause.toJson),
      ("root_cause_details", h.rootCauseDetails.map .str), ("children", some (.arr (forestJson children))),
      ("attachments", some (.arr (h.attachments.map Attachment.toJson))),
      ("position", h.position.map fun n => .int (Int.ofNat n)), ("started_at", some h.startedAt.toJson),
      ("duration_ms", some (.int h.durationMs))]
  | action a => a.fields
  | message m => m.fields

theorem toJson_eq (n : Node) : n.toJson = .obj (("type", .str n.tag) :: row n.fields) := by
  cases n with
  | step h children => simp [toJson, headMembers, tailMembers, tag, fields]
  | action a => rw [toJson, Action.members_eq, tag, fields]
  | message m => rw [toJson, Message.members_eq, tag, fields]

theorem tagged?_toJson (nested : Bool) (n : Node) :
    n.toJson.tagged? "type" nested typeTags = some (n.tag, .obj (row n.fields)) := by
  rw [toJson_eq]
  exact tagged?_row nested (by cases n <;> simp [fields, Action.fields, Message.fields])
    (by cases n <;> simp [tag, typeTags])

theorem forestJson_eq (ns : List Node) : forestJson ns = ns.map toJson := by
  induction ns with
  | nil => rfl
  | cons n ns ih => rw [forestJson, ih, List.map_cons]

theorem depth_lt_of_mem_children {h : StepHead} {children : List Node} {n : Node} (hn : n ∈ children) :
    n.toJson.depth < (step h children).toJson.depth := by
  have hitem : n.toJson ∈ forestJson children := by
    rw [forestJson_eq]
    exact List.mem_map_of_mem hn
  have hmember : ("children", Json.arr (forestJson children)) ∈
      ("type", .str "step") :: row (step h children).fields := by
    simp [fields]
  rw [toJson_eq (step h children)]
  exact Json.depth_lt_of_mem_items hmember hitem

theorem stepOfJson?_fields {readChild : Json → Option Node} {h : StepHead} {children : List Node}
    (hchildren : ∀ n ∈ children, readChild n.toJson = some n) :
    stepOfJson? readChild (.obj (row (step h children).fields)) = some (step h children) := by
  have hread : Json.toList? readChild (.arr (forestJson children)) = some children := by
    rw [forestJson_eq]
    exact toList?_map children hchildren
  have hfiles : Json.toList? Attachment.ofJson? (.arr (h.attachments.map Attachment.toJson)) = some h.attachments :=
    toList?_map h.attachments fun a _ => a.ofJson?_toJson
  rw [stepOfJson?, fields?_row (by rfl) (by simp [stepFieldNames])]
  simp [fields, hread, hfiles]

/-- the induction is on the depth the reader may go, and what a step holds is less deep than the step -/
theorem ofJsonWithin_toJson {n : Node} {depth : Nat} (nested : Bool) (hdepth : n.toJson.depth ≤ depth) :
    ofJsonWithin depth nested n.toJson = some n := by
  induction depth generalizing n nested with
  | zero =>
    rw [toJson_eq, Json.depth] at hdepth
    exact absurd hdepth (Nat.not_succ_le_zero _)
  | succ depth ih =>
    rw [ofJsonWithin, tagged?_toJson]
    cases n with
    | step h children =>
      have hchildren : ∀ c ∈ children, ofJsonWithin depth true c.toJson = some c := fun c hc =>
        ih true (Nat.le_of_lt_succ (Nat.lt_of_lt_of_le (depth_lt_of_mem_children hc) hdepth))
      exact stepOfJson?_fields hchildren
    | action a => exact congrArg (Option.map action) a.ofJson?_fields
    | message m => exact congrArg (Option.map message) m.ofJson?_fields

/-- **A tree is read back as it was written**, however deep it is. -/
@[simp] theorem ofJson?_toJson (n : Node) : ofJson? n.toJson = some n := ofJsonWithin_toJson false (Nat.le_refl _)

end Node

end TestTrail
