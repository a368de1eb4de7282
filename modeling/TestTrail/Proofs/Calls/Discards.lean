/-
The attempts that a test discards.

A replay discards an attempt when it goes back to the record before it and tries again. `Call.discards` lists, for the
run of a call, every attempt that was discarded and not itself part of a discarded one, with the record before it and
the record after it. The list follows the run: what a replayed body discards counts for the last attempt only.
-/
import TestTrail.Plan.Run
import TestTrail.Proofs.Recorder.Flawless

namespace TestTrail

open Recorder

variable {σ α : Type}

/-! ## Replays -/

namespace Replay

/-- the test gone back to before an attempt, with the pause that follows -/
def goneBack (e : Replay) (deadline : Nat) (r after : TestRun σ) : TestRun σ :=
  ({ after with clock := after.clock.afterReading }.record fun rec => rec.rollback r.recorder.checkpoint).pause
    (min e.delay (deadline - after.clock.now))

/-- the test before the next attempt, if this attempt is discarded -/
def next? (e : Replay) (deadline : Nat) (frame : Option String) (body : Body σ α) (r : TestRun σ) :
    Option (TestRun σ) :=
  match attempt frame body r with
  | (.failed f, after) =>
    if f.transient = true ∧ after.clock.now < deadline then some (goneBack e deadline r after) else none
  | _ => none

/-- the attempts that are discarded, and what the last attempt discards inside it -/
def discardsFrom (e : Replay) (deadline : Nat) (frame : Option String) (body : Body σ α)
    (inside : TestRun σ → List Discard) : Nat → TestRun σ → List Discard
  | 0, _ => []
  | fuel + 1, r =>
    match next? e deadline frame body r with
    | some next =>
      ⟨r.recorder, (attempt frame body r).2.recorder⟩ :: discardsFrom e deadline frame body inside fuel next
    | none => inside (restoreFrame frame r).2

def discards (e : Replay) (frame : Option String) (body : Body σ α) (inside : TestRun σ → List Discard)
    (r : TestRun σ) : List Discard :=
  if clockLimit ≤ r.clock.now + e.timeout then []
  else
    discardsFrom e (r.clock.now + e.timeout) frame body inside attemptLimit { r with clock := r.clock.afterReading }

end Replay

/-! ## Calls -/

namespace TestRun

def executeDiscards (op : Operation) (frame : Option String) (body : Body σ α) (inside : TestRun σ → List Discard)
    (r : TestRun σ) : List Discard :=
  if op.replay then (Replay.ofSettings r.settings).discards frame body inside r else inside r

/-- what the call of an operation discards; the step of a call is opened before the first attempt -/
def interceptDiscards (i : Invocation) (body : Body σ α) (inside : TestRun σ → List Discard) (r : TestRun σ) :
    List Discard :=
  match r.registry.get? i.operation with
  | none => []
  | some op =>
    if op.kind = .action ∨ r.settings.manualTestSteps = true then executeDiscards op i.frame body inside r
    else executeDiscards op i.frame body inside (r.record fun rec => rec.openStep (r.stepOf op i))

/-- the declared operation of a composite, or one of its own -/
def compositeOperation (c : Composite) (r : TestRun σ) : Operation :=
  (r.registry.get? c.id).getD (Operation.ofKind c.id .composite)

/-- the step of a composite, still empty -/
def compositeStep (c : Composite) (r : TestRun σ) : Step :=
  { head :=
      { name := c.name, actionId := c.id, origin := c.origin, rootCause := (compositeOperation c r).rootCause
        rootCauseDetails := (compositeOperation c r).rootCauseDetails, startedAt := r.recorder.now } }

/-- driver commands discard nothing inside them -/
def nothing (_ : TestRun σ) : List Discard := []

def compositeDiscards (c : Composite) (r : TestRun σ) : List Discard :=
  executeDiscards (compositeOperation c r) none (unit c.primitives) nothing
    (r.record fun rec => rec.openStep (compositeStep c r))

def compositesDiscards : List Composite → TestRun σ → List Discard
  | [], _ => []
  | c :: cs, r =>
    compositeDiscards c r ++
      match performComposite c r with
      | (.ok _, r) => compositesDiscards cs r
      | _ => []

end TestRun

namespace Call

mutual

def discards : Call → TestRun σ → List Discard
  | operation target command children, r =>
    if isAction r.registry target.operation then
      r.interceptDiscards target
        (TestRun.command (command.getD target.operation) target.element target.driverArgs) TestRun.nothing
    else r.interceptDiscards target (fun r => runAll children r) (fun r => discardsAll children r)
  | composites batch, r => r.compositesDiscards batch
  | _, _ => []

def discardsAll : List Call → TestRun σ → List Discard
  | [], _ => []
  | c :: cs, r =>
    c.discards r ++
      match c.run r with
      | (.ok _, r) => discardsAll cs r
      | _ => []

end

end Call

end TestTrail
