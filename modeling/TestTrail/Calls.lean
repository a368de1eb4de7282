/-
Calls: turning what a test does into recorded steps.

`intercept` runs a body as one call of a declared operation. A step or composite operation opens a step around the body,
unless tests manage their steps themselves; an action is recorded behind the body. Where the operation is replayed, the
body runs inside a replay, and a replay that gave up leaves a warning in the step that is current for the call. Failures
are recorded and handed on unchanged. An operation nobody declared fails without running its body.

`perform` is the call of a driver command. `performComposite` runs primitive commands as one unit: one step with one
action per primitive, all failed when the unit failed.
-/
import TestTrail.Naming
import TestTrail.Replay

namespace TestTrail

/-- a call of an operation with its actual arguments -/
structure Invocation where
  operation : String
  origin : Option String := none
  element : Option Element := none
  args : List Arg := []
  deriving BEq, Repr

/-- one driver command of a composite -/
structure Primitive where
  command : String
  element : Option Element := none
  args : List String := []
  deriving DecidableEq, Repr

/-- primitives performed as one unit -/
structure Composite where
  id : String := "composite"
  origin : Option String := none
  primitives : List Primitive
  deriving DecidableEq, Repr

namespace Invocation

/-- the frame of the element -/
def frame (i : Invocation) : Option String := i.element.bind Element.frame

/-- the arguments as the driver gets them -/
def driverArgs (i : Invocation) : List String := i.args.map fun a => a.value.display

end Invocation

namespace Primitive

/-- the name of the recorded action -/
def name (p : Primitive) : String :=
  let subject := match p.element with
    | some e => p.command ++ " on " ++ e.describe
    | none => p.command
  Naming.defaultName subject (p.args.map fun a => ⟨"", .text a⟩)

end Primitive

namespace Composite

/-- the commands, one after the other -/
def name (c : Composite) : String := ", ".intercalate (c.primitives.map Primitive.command)

end Composite

namespace TestRun

variable {σ α : Type}

/-- runs a body for an operation, replayed if the operation is; the text is the warning of an exhausted replay -/
def execute (op : Operation) (frame : Option String) (body : Body σ α) (r : TestRun σ) :
    (Outcome α × Option String) × TestRun σ :=
  if op.replay then
    let replay := Replay.ofSettings r.settings
    let (replayed, r) := replay.run frame body r
    ((replayed.result, if replayed.exhausted then some (replay.exhaustedMessage replayed.attempts) else none), r)
  else
    let (outcome, r) := body r
    ((outcome, none), r)

/-- records the warning of an exhausted replay -/
def warn (warning : Option String) (r : TestRun σ) : TestRun σ :=
  match warning with
  | some text => r.record fun rec => rec.recordMessage text .warning
  | none => r

/-- the name of a step, with the scenario's text in scenarios that have one -/
def stepName (r : TestRun σ) (op : Operation) (args : List Arg) : String :=
  match op.scenarioText, r.cucumber with
  | some text, true => Naming.scenarioName r.settings.maskPassword op text args
  | _, _ => Naming.name r.settings.maskPassword op none args

/-- the name of an action, on its element if it has one -/
def actionName (r : TestRun σ) (op : Operation) (i : Invocation) : String :=
  Naming.name r.settings.maskPassword op (i.element.map fun e => op.id ++ " on " ++ e.describe) i.args

/-- the step of a call, still empty -/
def stepOf (r : TestRun σ) (op : Operation) (i : Invocation) : Step :=
  { head :=
      { name := r.stepName op i.args, actionId := op.id, origin := i.origin, element := i.element
        rootCause := op.rootCause, rootCauseDetails := op.rootCauseDetails, startedAt := r.recorder.now } }

/-- a step or composite operation -/
def interceptStep (op : Operation) (i : Invocation) (body : Body σ α) : Body σ α := fun r =>
  if r.settings.manualTestSteps then
    let ((outcome, _), r) := execute op i.frame body r
    (outcome, r)
  else
    let r := r.record fun rec => rec.openStep (r.stepOf op i)
    let ((outcome, warning), r) := execute op i.frame body r
    (outcome, (warn warning r).record fun rec => rec.closeStep outcome.failure?)

/-- an action operation -/
def interceptAction (op : Operation) (i : Invocation) (body : Body σ α) : Body σ α := fun r =>
  let name := r.actionName op i
  let ((outcome, warning), r) := execute op i.frame body r
  let action : Action :=
    { name := name, actionId := op.id, origin := i.origin, element := i.element, timestamp := r.recorder.now }
  let action := match outcome.failure? with
    | some f => action.failedWith (some f)
    | none => action
  (outcome, warn warning (r.record fun rec => rec.recordAction action))

/-- the failure of a call that names no declared operation -/
def unknownOperation (id : String) : Failure := ⟨.scenario, "unknown operation '" ++ id ++ "'"⟩

/-- runs a body as one call -/
def intercept (i : Invocation) (body : Body σ α) : Body σ α := fun r =>
  match r.registry.get? i.operation with
  | none => (.failed (unknownOperation i.operation), r)
  | some op =>
    match op.kind with
    | .action => interceptAction op i body r
    | .step | .composite => interceptStep op i body r

/-- executes one command on the driver -/
def command (name : String) (element : Option Element) (args : List String) : Body σ String := fun r =>
  match r.driver with
  | none => (.failed noDriver, r)
  | some driver =>
    let (result, driver) := driver.execute name element args
    (Outcome.ofExcept result, { r with driver := some driver }.pause driver.latency)

/-- a call that is one driver command -/
def perform (i : Invocation) (name : String) : Body σ String := intercept i (command name i.element i.driverArgs)

/-- executes primitives until one fails -/
def commands : List Primitive → Body σ Unit
  | [], r => (.ok (), r)
  | p :: ps, r =>
    match command p.command p.element p.args r with
    | (.ok _, r) => commands ps r
    | (.failed f, r) => (.failed f, r)
    | (.crashed c, r) => (.crashed c, r)

/-- the primitives as one unit; a driver is needed even when there are none -/
def unit (ps : List Primitive) : Body σ Unit := fun r =>
  match r.driver with
  | none => (.failed noDriver, r)
  | some _ => commands ps r

def performComposite (c : Composite) : Body σ Unit := fun r =>
  let op := (r.registry.get? c.id).getD (Operation.ofKind c.id .composite)
  let step : Step :=
    { head :=
        { name := c.name, actionId := c.id, origin := c.origin, rootCause := op.rootCause
          rootCauseDetails := op.rootCauseDetails, startedAt := r.recorder.now } }
  let r := r.record fun rec => rec.openStep step
  let ((outcome, warning), r) := execute op none (unit c.primitives) r
  let action (p : Primitive) : Action :=
    { name := p.name, actionId := p.command, origin := c.origin, element := p.element
      failed := outcome.failure?.isSome, timestamp := r.recorder.now }
  let r := r.record fun rec => c.primitives.foldl (fun rec p => rec.recordAction (action p)) rec
  (outcome, (warn warning r).record fun rec => rec.closeStep outcome.failure?)

/-- performs composites until one fails -/
def performComposites : List Composite → Body σ Unit
  | [], r => (.ok (), r)
  | c :: cs, r =>
    match performComposite c r with
    | (.ok _, r) => performComposites cs r
    | (outcome, r) => (outcome, r)

end TestRun

end TestTrail
