/-
A node in short, in JSON: what it tells about itself, and for a step the names of what it holds.
-/
import TestTrail.Tree.Json

namespace TestTrail

/-- the names of sub-steps and actions, the texts of messages, and the labels of all files -/
def Step.contentsJson (s : Step) : Json :=
  .obj
    [("sub_steps", .strings (s.subSteps.map fun s => s.head.name)), ("actions", .strings (s.actions.map Action.name)),
      ("messages", .strings (s.messages.map Message.text)),
      ("all_attachments", .strings (s.allAttachments.map Attachment.label))]

def Node.summaryJson (n : Node) : Json :=
  .obj
    [("name", .str n.name), ("failed", .bool n.failed), ("has_exception", .bool n.hasException),
      ("exception", (n.exception.map RecordedFailure.toJson).getD .null), ("children", .int n.children.length),
      ("action_id", .ofOption (n.toAction?.map Action.actionId)),
      ("step", (n.toStep?.map Step.contentsJson).getD .null)]

end TestTrail
