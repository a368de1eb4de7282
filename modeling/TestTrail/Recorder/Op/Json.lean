/-
Recorder operations in JSON: the member `do` tells the operation, the others are its parts.

Names and labels that are missing are empty, an action id that is missing is the name. Elements, root causes and levels
follow the rules of their types; a message must have its level.
-/
import TestTrail.Failure.Json
import TestTrail.Json.Lenient
import TestTrail.Recorder.Op
import TestTrail.Tree.Json

namespace TestTrail

namespace Recorder.Op

def names : List String :=
  ["open_step", "close_step", "record_action", "record_message", "attach_file", "fail_current", "add_step",
    "add_secret", "finish_steps", "take_steps"]

def actionId (j : Json) : String := (j.textAt? "action_id").getD (j.textAt "name")

def stepOfJson? (now : Timestamp) (j : Json) : Option Step := do
  let rootCause ← j.readAt? "root_cause" (RootCause.ofJson? false) .none
  let element ← j.optionAt? "element" Element.ofJson?
  let head : StepHead :=
    { name := j.textAt "name", actionId := actionId j, origin := j.textAt? "origin", element := element
      rootCause := rootCause, rootCauseDetails := j.textAt? "root_cause_details", startedAt := now }
  some { head := head }

def actionOfJson? (now : Timestamp) (j : Json) : Option Action := do
  let element ← j.optionAt? "element" Element.ofJson?
  let a : Action :=
    { name := j.textAt "name", actionId := actionId j, origin := j.textAt? "origin", element := element
      timestamp := now }
  some (if j.flagAt "failed" false then a.failedWith (Failure.ofJson? (j.valueAt "error")) else a)

/-- the operation at a moment; a name that is not known counts as the last of the names -/
def ofJson? (now : Timestamp) (j : Json) : Option Op :=
  let name := j.textAt "do"
  let failure := Failure.ofJson? (j.valueAt "error")
  if name = "open_step" then (stepOfJson? now j).map openStep
  else if name = "close_step" then some (closeStep failure)
  else if name = "record_action" then (actionOfJson? now j).map recordAction
  else if name = "record_message" then
    (Level.ofJson? false (j.valueAt "level")).map fun level => recordMessage (j.textAt "text") level
  else if name = "attach_file" then some (attachFile ⟨j.textAt "label", j.textAt "path"⟩)
  else if name = "fail_current" then some (failCurrent failure)
  else if name = "add_step" then some (addStep (j.textAt "name"))
  else if name = "add_secret" then some (addSecret (j.textAt "value"))
  else if name = "finish_steps" then
    some (finish failure ((j.textAt? "screenshot").map fun label => ⟨label, label ++ ".png"⟩))
  else some takeSteps

end Recorder.Op

end TestTrail
