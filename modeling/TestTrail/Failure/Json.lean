/-
Failures in JSON: an object of kind and message.

A recorded failure is read by the rules of a structure. A failure to come takes any object: what is missing is empty, and
an unknown kind is a driver failure.
-/
import TestTrail.Failure
import TestTrail.Json.Lenient

namespace TestTrail

namespace RecordedFailure

def toJson (f : RecordedFailure) : Json := .obj [("kind", .str f.kind), ("message", .str f.message)]

def ofJson? (j : Json) : Option RecordedFailure :=
  match Json.fields? ["kind", "message"] j with
  | some [kind, message] => do
    let kind ← Json.required kind Json.toString?
    let message ← Json.required message Json.toString?
    some ⟨kind, message⟩
  | _ => none

end RecordedFailure

namespace Failure

def ofJson? (j : Json) : Option Failure :=
  match j with
  | .obj _ => some ⟨FailureKind.ofTag (j.textAt "kind"), j.textAt "message"⟩
  | _ => none

end Failure

end TestTrail
