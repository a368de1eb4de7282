/-
Test plans: the operations of a suite and the tests of one context.

A test is a list of calls run against a scripted driver. Calls of step operations hold further calls. A plan is valid when
every called operation is declared, and no called action holds calls; calls that are no operation calls are not looked
into. `problem?` finds the first fault in reading order.

The failures of a driver plan apply to the attempts they name, or to all. With a count they are queued in the plan's
order, without one they are permanent, and a later permanent failure replaces an earlier one.
-/
import TestTrail.Calls

namespace TestTrail

/-- one call of a test -/
inductive Call where
  | operation (target : Invocation) (command : Option String) (children : List Call)
  | composites (batch : List Composite)
  | step (name : String)
  | message (text : String) (level : Level)
  | secret (value : String)
  | fail (message : String)
  deriving BEq, Repr

structure FailurePlan where
  command : String
  times : Option UInt32 := none
  kind : String
  message : Option String := none
  onAttempts : List UInt32 := []
  deriving DecidableEq, Repr

structure DriverPlan where
  title : Option String := none
  latencyMs : Option Nat := none
  failures : List FailurePlan := []
  deriving DecidableEq, Repr

structure PlanTest where
  name : String
  tags : List String := []
  cucumber : Bool := false
  driver : DriverPlan := {}
  calls : List Call
  deriving BEq, Repr

structure Plan where
  context : String
  operations : List Operation := []
  tests : List PlanTest
  deriving BEq, Repr

namespace FailurePlan

def failure (p : FailurePlan) : Failure := ⟨FailureKind.ofTag p.kind, p.message.getD p.command⟩

def appliesTo (p : FailurePlan) (attempt : UInt32) : Bool := p.onAttempts.isEmpty || p.onAttempts.contains attempt

/-- puts the failure into a driver's script -/
def addTo (p : FailurePlan) (d : Driver) : Driver :=
  match p.times with
  | some times => d.failNext p.command times.toNat p.failure
  | none => d.alwaysFail p.command p.failure

end FailurePlan

namespace DriverPlan

/-- the driver for an attempt -/
def build (p : DriverPlan) (attempt : UInt32) : Driver :=
  let blank : Driver := {}
  let driver := { blank with title := p.title.getD blank.title, latency := p.latencyMs.getD 0 * nanosPerMilli }
  (p.failures.filter fun f => f.appliesTo attempt).foldl (fun d f => f.addTo d) driver

end DriverPlan

namespace Call

mutual

/-- the first fault in a call -/
def problem? (registry : Registry) (test : String) : Call → Option Problem
  | operation target _ children =>
    match registry.get? target.operation with
    | none => some (.undeclaredOperation test target.operation)
    | some op =>
      if op.kind == .action && !children.isEmpty then some (.actionWithChildren target.operation test)
      else problemIn? registry test children
  | _ => none

def problemIn? (registry : Registry) (test : String) : List Call → Option Problem
  | [] => none
  | c :: cs =>
    match c.problem? registry test with
    | some p => some p
    | none => problemIn? registry test cs

end

end Call

namespace Plan

def registry (p : Plan) : Registry := Registry.ofList p.operations

/-- the first fault of the plan -/
def problem? (p : Plan) : Option Problem := p.tests.findSome? fun t => Call.problemIn? p.registry t.name t.calls

/-- the tests to run: those named, if any are, and of the scenarios those that pass the filter -/
def selected (p : Plan) (filter : ScenarioFilter) (only : List String) : List PlanTest :=
  (p.tests.filter fun t => only.isEmpty || only.contains t.name).filter fun t =>
    !t.cucumber || filter.selects t.name t.tags

end Plan

end TestTrail
