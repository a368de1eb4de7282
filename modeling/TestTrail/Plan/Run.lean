/-
Running the calls of a test one after the other, until one fails.

An operation call is a driver command when the operation is an action, and otherwise runs the calls it holds inside a step.
The other calls work on the record alone; `fail` puts its failure on the current step and hands it on.
-/
import TestTrail.Plan

namespace TestTrail

namespace Call

variable {σ : Type}

/-- the declared kind of the called operation is action -/
def isAction (registry : Registry) (id : String) : Bool :=
  match registry.get? id with
  | some op => op.kind == .action
  | none => false

mutual

def run : Call → Body σ Unit
  | operation target command children, r =>
    if isAction r.registry target.operation then
      let (outcome, r) := r.perform target (command.getD target.operation)
      (outcome.map fun _ => (), r)
    else r.intercept target (fun r => runAll children r)
  | composites batch, r => r.performComposites batch
  | step name, r => (.ok (), r.record fun rec => rec.addStep name)
  | message text level, r => (.ok (), r.record fun rec => rec.recordMessage text level)
  | secret value, r => (.ok (), r.record fun rec => rec.addSecret value)
  | fail text, r =>
    let failure : Failure := ⟨.assertion, text⟩
    (.failed failure, r.record fun rec => rec.failCurrent (some failure))

def runAll : List Call → Body σ Unit
  | [], r => (.ok (), r)
  | c :: cs, r =>
    match c.run r with
    | (.ok _, r) => runAll cs r
    | (outcome, r) => (outcome, r)

end

end Call

end TestTrail
