/-
Elements in JSON: an object of label, locator, and the frame if there is one.
-/
import TestTrail.Element
import TestTrail.Json.Fields

namespace TestTrail.Element

def toJson (e : Element) : Json :=
  .obj ([("label", .str e.label), ("locator", .str e.locator)] ++ Json.present "frame" .str e.frame)

def ofJson? (j : Json) : Option Element :=
  match Json.fields? ["label", "locator", "frame"] j with
  | some [label, locator, frame] => do
    let label ← Json.required label Json.toString?
    let locator ← Json.required locator Json.toString?
    let frame ← Json.optional frame Json.toString?
    some { label := label, locator := locator, frame := frame }
  | _ => none

end TestTrail.Element
