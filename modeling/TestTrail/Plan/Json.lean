/-
Test plans in JSON.

A call is an object whose member `call` tells what it is. Calls are read ahead: inside them every value has to be
readable, also in members nobody knows, and in a plan given as text they may be nested to a limit only. Elsewhere in a
plan unknown members are passed over whatever they hold. `Plan.ofText?` reads the text of a plan.
-/
import TestTrail.Argument.Json
import TestTrail.Json.Reader
import TestTrail.Plan
import TestTrail.Tree.Json

namespace TestTrail

open TestTrail.Json (present required orElse optional)

def Json.ofCount (n : UInt32) : Json := .int n.toNat

namespace FailurePlan

def toJson (p : FailurePlan) : Json :=
  .obj
    [("command", .str p.command), ("times", (p.times.map Json.ofCount).getD .null), ("kind", .str p.kind),
      ("message", .ofOption p.message), ("on_attempts", .arr (p.onAttempts.map Json.ofCount))]

def ofJson? (j : Json) : Option FailurePlan :=
  match j.fields? ["command", "times", "kind", "message", "on_attempts"] with
  | some [command, times, kind, message, onAttempts] => do
    let command ← required command Json.toString?
    let times ← optional times Json.toUInt32?
    let kind ← required kind Json.toString?
    let message ← optional message Json.toString?
    let onAttempts ← orElse onAttempts (Json.toList? Json.toUInt32?) []
    some ⟨command, times, kind, message, onAttempts⟩
  | _ => none

end FailurePlan

namespace DriverPlan

def toJson (p : DriverPlan) : Json :=
  .obj
    [("title", .ofOption p.title), ("latency_ms", (p.latencyMs.map fun n => Json.int (Int.ofNat n)).getD .null),
      ("failures", .arr (p.failures.map FailurePlan.toJson))]

def ofJson? (j : Json) : Option DriverPlan :=
  match j.fields? ["title", "latency_ms", "failures"] with
  | some [title, latencyMs, failures] => do
    let title ← optional title Json.toString?
    let latencyMs ← optional latencyMs Json.toNat?
    let failures ← orElse failures (Json.toList? FailurePlan.ofJson?) []
    some ⟨title, latencyMs, failures⟩
  | _ => none

end DriverPlan

namespace Primitive

def toJson (p : Primitive) : Json :=
  .obj
    [("command", .str p.command), ("element", (p.element.map Element.toJson).getD .null),
      ("args", .strings p.args)]

def ofJson? (j : Json) : Option Primitive :=
  match j.fields? ["command", "element", "args"] with
  | some [command, element, args] => do
    let command ← required command Json.toString?
    let element ← optional element Element.ofJson?
    let args ← orElse args Json.toStrings? []
    some ⟨command, element, args⟩
  | _ => none

end Primitive

namespace Composite

def toJson (c : Composite) : Json :=
  .obj
    [("id", .str c.id), ("origin", .ofOption c.origin), ("primitives", .arr (c.primitives.map Primitive.toJson))]

def ofJson? (j : Json) : Option Composite :=
  match j.fields? ["id", "origin", "primitives"] with
  | some [id, origin, primitives] => do
    let id ← orElse id Json.toString? "composite"
    let origin ← optional origin Json.toString?
    let primitives ← required primitives (Json.toList? Primitive.ofJson?)
    some ⟨id, origin, primitives⟩
  | _ => none

end Composite

namespace Call

mutual

def toJson : Call → Json
  | operation target command children =>
    .obj
      [("call", .str "operation"), ("id", .str target.operation), ("origin", .ofOption target.origin),
        ("element", (target.element.map Element.toJson).getD .null), ("args", .arr (target.args.map Arg.toJson)),
        ("command", .ofOption command), ("children", .arr (callsJson children))]
  | composites batch => .obj [("call", .str "composites"), ("batch", .arr (batch.map Composite.toJson))]
  | step name => .obj [("call", .str "step"), ("name", .str name)]
  | message text level => .obj [("call", .str "message"), ("text", .str text), ("level", level.toJson)]
  | secret value => .obj [("call", .str "secret"), ("value", .str value)]
  | fail text => .obj [("call", .str "fail"), ("message", .str text)]

def callsJson : List Call → List Json
  | [] => []
  | c :: cs => c.toJson :: callsJson cs

end

def callTags : List String := ["operation", "composites", "step", "message", "secret", "fail"]

/-- an operation call, with a reader for its children -/
def operationOfJson? (readChild : Json → Option Call) (j : Json) : Option Call :=
  match j.fields? ["id", "origin", "element", "args", "command", "children"] with
  | some [id, origin, element, args, command, children] => do
    let id ← required id Json.toString?
    let origin ← optional origin Json.toString?
    let element ← optional element Element.ofJson?
    let args ← orElse args (Json.toList? Arg.ofJson?) []
    let command ← optional command Json.toString?
    let children ← orElse children (Json.toList? readChild) []
    some (.operation ⟨id, origin, element, args⟩ command children)
  | _ => none

/-- a call with one text -/
def textOfJson? (name : String) (j : Json) : Option String :=
  match j.fields? [name] with
  | some [text] => required text Json.toString?
  | _ => none

def compositesOfJson? (j : Json) : Option Call :=
  match j.fields? ["batch"] with
  | some [batch] => (required batch (Json.toList? Composite.ofJson?)).map .composites
  | _ => none

def messageOfJson? (j : Json) : Option Call :=
  match j.fields? ["text", "level"] with
  | some [text, level] => do
    let text ← required text Json.toString?
    let level ← orElse level (Level.ofJson? true) .info
    some (.message text level)
  | _ => none

/-- reads a call whose JSON value has at most this depth -/
def ofJsonWithin : Nat → Bool → Json → Option Call
  | 0, _, _ => none
  | depth + 1, nested, j =>
    match j.tagged? "call" nested callTags with
    | some (tag, fields) =>
      if tag = "operation" then operationOfJson? (ofJsonWithin depth true) fields
      else if tag = "composites" then compositesOfJson? fields
      else if tag = "step" then (textOfJson? "name" fields).map .step
      else if tag = "message" then messageOfJson? fields
      else if tag = "secret" then (textOfJson? "value" fields).map .secret
      else (textOfJson? "message" fields).map .fail
    | none => none

def ofJson? (j : Json) : Option Call := ofJsonWithin j.depth false j

/-- how deep a call of a plan given as text may be nested -/
def depthLimit : Nat := 123

def ofJsonText? (j : Json) : Option Call := if j.fitsWithin depthLimit then ofJson? j else none

end Call

namespace PlanTest

def toJson (t : PlanTest) : Json :=
  .obj
    [("name", .str t.name), ("tags", .strings t.tags), ("cucumber", .bool t.cucumber), ("driver", t.driver.toJson),
      ("calls", .arr (Call.callsJson t.calls))]

/-- a test, with a reader for its calls -/
def ofJsonWith? (readCall : Json → Option Call) (j : Json) : Option PlanTest :=
  match j.fields? ["name", "tags", "cucumber", "driver", "calls"] with
  | some [name, tags, cucumber, driver, calls] => do
    let name ← required name Json.toString?
    let tags ← orElse tags Json.toStrings? []
    let cucumber ← orElse cucumber Json.toBool? false
    let driver ← orElse driver DriverPlan.ofJson? {}
    let calls ← required calls (Json.toList? readCall)
    some ⟨name, tags, cucumber, driver, calls⟩
  | _ => none

end PlanTest

namespace Plan

def toJson (p : Plan) : Json :=
  .obj
    [("context", .str p.context), ("operations", .arr (p.operations.map Operation.toJson)),
      ("tests", .arr (p.tests.map PlanTest.toJson))]

def ofJsonWith? (readCall : Json → Option Call) (j : Json) : Option Plan :=
  match j.fields? ["context", "operations", "tests"] with
  | some [context, operations, tests] => do
    let context ← required context Json.toString?
    let operations ← orElse operations (Json.toList? Operation.ofJson?) []
    let tests ← required tests (Json.toList? (PlanTest.ofJsonWith? readCall))
    some ⟨context, operations, tests⟩
  | _ => none

def ofJson? (j : Json) : Option Plan := ofJsonWith? Call.ofJson? j

/-- the plan that a text writes -/
def ofText? (text : String) : Option Plan := (Json.ofText? text).bind (ofJsonWith? Call.ofJsonText?)

end Plan

end TestTrail
