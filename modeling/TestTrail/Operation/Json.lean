/-
Declarations of operations in JSON.

Written, every field stands there, with null for what is not set. Read, everything but id and kind may be missing; a
missing or null `replay` takes the default of the kind.
-/
import TestTrail.Json.Fields
import TestTrail.Operation

namespace TestTrail

namespace OperationKind

def all : List OperationKind := [step, action, composite]

def tag : OperationKind → String
  | step => "step"
  | action => "action"
  | composite => "composite"

def ofJson? (j : Json) : Option OperationKind := Json.oneOf? false tag all j

end OperationKind

namespace RootCause

def all : List RootCause := [none, regression, environment, script, data, unknown]

def tag : RootCause → String
  | none => "none"
  | regression => "regression"
  | environment => "environment"
  | script => "script"
  | data => "data"
  | unknown => "unknown"

def toJson (c : RootCause) : Json := .str c.tag

def ofJson? (buffered : Bool) (j : Json) : Option RootCause := Json.oneOf? buffered tag all j

end RootCause

namespace Operation

def toJson (op : Operation) : Json :=
  .obj
    [("id", .str op.id), ("kind", .str op.kind.tag), ("template", .ofOption op.template),
      ("scenario_text", .ofOption op.scenarioText), ("masked_params", .strings op.maskedParams),
      ("root_cause", op.rootCause.toJson), ("root_cause_details", .ofOption op.rootCauseDetails),
      ("replay", .bool op.replay)]

def fieldNames : List String :=
  ["id", "kind", "template", "scenario_text", "masked_params", "root_cause", "root_cause_details", "replay"]

def ofJson? (j : Json) : Option Operation :=
  match Json.fields? fieldNames j with
  | some [id, kind, template, scenarioText, maskedParams, rootCause, rootCauseDetails, replay] => do
    let id ← Json.required id Json.toString?
    let kind ← Json.required kind OperationKind.ofJson?
    let template ← Json.optional template Json.toString?
    let scenarioText ← Json.optional scenarioText Json.toString?
    let maskedParams ← Json.orElse maskedParams Json.toStrings? []
    let rootCause ← Json.orElse rootCause (RootCause.ofJson? false) .none
    let rootCauseDetails ← Json.optional rootCauseDetails Json.toString?
    let replay ← Json.optional replay Json.toBool?
    let op := Operation.ofKind id kind
    some { op with
      template := template, scenarioText := scenarioText, maskedParams := maskedParams, rootCause := rootCause
      rootCauseDetails := rootCauseDetails, replay := replay.getD op.replay }
  | _ => none

end Operation

end TestTrail
