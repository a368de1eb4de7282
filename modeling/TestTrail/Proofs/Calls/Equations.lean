/-
The parts of a run, as equations.

A replay is taken apart at its attempts: `attemptsFrom_of_next` has an attempt that is discarded and the rest of the
replay from there, `attemptsFrom_of_last` the attempt that decides. A call of an operation is the run of its body with
an end behind it: `closing` for a call that has a step of its own, `acting` for one that is recorded as an action. A
list of calls is the first one, and then the others (`andThen`).
-/
import TestTrail.Proofs.Calls.Discards

namespace TestTrail

open Recorder

variable {σ α : Type}

/-- the code succeeded -/
def Outcome.isOk : Outcome α → Bool
  | .ok _ => true
  | _ => false

/-! ## One after another -/

/-- one body after another, unless the first does not succeed -/
def andThen (first rest : Body σ Unit) : Body σ Unit := fun r =>
  match first r with
  | (.ok _, r) => rest r
  | (outcome, r) => (outcome, r)

def andThenDiscards (first : Body σ Unit) (inside more : TestRun σ → List Discard) (r : TestRun σ) : List Discard :=
  inside r ++
    match first r with
    | (.ok _, r) => more r
    | _ => []

namespace Call

theorem runAll_cons (c : Call) (cs : List Call) : (runAll (c :: cs) : Body σ Unit) = andThen c.run (runAll cs) := rfl

theorem discardsAll_cons (c : Call) (cs : List Call) :
    (discardsAll (c :: cs) : TestRun σ → List Discard) = andThenDiscards c.run c.discards (discardsAll cs) := rfl

end Call

/-! ## Replays -/

namespace Replay

variable {e : Replay} {deadline : Nat} {frame : Option String} {body : Body σ α}

theorem recorder_restoreFrame (frame : Option String) (r : TestRun σ) :
    (restoreFrame frame r).2.recorder = r.recorder := by
  unfold restoreFrame
  split
  · rfl
  · split
    · rfl
    · rfl

theorem attempt_eq (frame : Option String) (body : Body σ α) (r : TestRun σ) :
    (∃ f, attempt frame body r = (.failed f, (restoreFrame frame r).2)) ∨
      attempt frame body r = body (restoreFrame frame r).2 := by
  unfold attempt
  rcases restoreFrame frame r with ⟨_ | _, after⟩
  · exact Or.inl ⟨_, rfl⟩
  · exact Or.inr rfl

theorem next?_eq_some {r next : TestRun σ} (h : next? e deadline frame body r = some next) :
    ∃ f after, attempt frame body r = (.failed f, after) ∧ f.transient = true ∧ after.clock.now < deadline ∧
      next = goneBack e deadline r after := by
  unfold next? at h
  split at h
  · rename_i f after hattempt
    split at h
    · rename_i hcond
      exact ⟨f, after, hattempt, hcond.1, hcond.2, (Option.some.inj h).symm⟩
    · exact absurd h.symm (Option.some_ne_none next)
  · exact absurd h.symm (Option.some_ne_none next)

/-- an attempt that is discarded is followed by the others -/
theorem attemptsFrom_of_next {r next : TestRun σ} (h : next? e deadline frame body r = some next) (fuel done : Nat) :
    attemptsFrom e deadline frame body (fuel + 1) done r = attemptsFrom e deadline frame body fuel (done + 1) next := by
  obtain ⟨f, after, hattempt, ht, hlt, rfl⟩ := next?_eq_some h
  rw [attemptsFrom, hattempt]
  simp only
  rw [if_pos ht, if_neg (Nat.not_le.2 hlt)]
  rfl

/-- the last attempt decides, and leaves the test as it is but for the clock -/
theorem attemptsFrom_last {r : TestRun σ} (h : next? e deadline frame body r = none) (fuel done : Nat) :
    (attemptsFrom e deadline frame body (fuel + 1) done r).1.result = (attempt frame body r).1 ∧
      ∃ clock, (attemptsFrom e deadline frame body (fuel + 1) done r).2 =
        { (attempt frame body r).2 with clock := clock } := by
  rcases hattempt : attempt frame body r with ⟨a | f | c, after⟩
  · rw [attemptsFrom, hattempt]
    exact ⟨rfl, _, rfl⟩
  · rw [attemptsFrom, hattempt]
    simp only
    by_cases ht : f.transient = true
    · have hover : deadline ≤ after.clock.now := by
        by_contra hlt
        have hnext : next? e deadline frame body r = some (goneBack e deadline r after) := by
          unfold next?
          rw [hattempt]
          exact if_pos ⟨ht, Nat.not_le.1 hlt⟩
        rw [h] at hnext
        cases hnext
      rw [if_pos ht, if_pos hover]
      exact ⟨rfl, _, rfl⟩
    · rw [if_neg ht]
      exact ⟨rfl, _, rfl⟩
  · rw [attemptsFrom, hattempt]
    exact ⟨rfl, _, rfl⟩

theorem attemptsFrom_of_last {r : TestRun σ} (h : next? e deadline frame body r = none) (fuel done : Nat) :
    (attemptsFrom e deadline frame body (fuel + 1) done r).1.result = (attempt frame body r).1 ∧
      (attemptsFrom e deadline frame body (fuel + 1) done r).2.recorder = (attempt frame body r).2.recorder := by
  obtain ⟨hresult, clock, hrun⟩ := attemptsFrom_last (e := e) h fuel done
  exact ⟨hresult, by rw [hrun]⟩

/-- an attempt that is discarded failed, and the record before the next one is gone back to, at a later time -/
theorem recorder_next {r next : TestRun σ} (h : next? e deadline frame body r = some next) :
    (attempt frame body r).1.isOk = false ∧
      ∃ now, next.recorder = ((attempt frame body r).2.recorder.rollback r.recorder.checkpoint).moveTo now := by
  obtain ⟨f, after, hattempt, _, _, rfl⟩ := next?_eq_some h
  rw [hattempt]
  exact ⟨rfl, _, rfl⟩

theorem run_of_overflow {r : TestRun σ} (h : clockLimit ≤ r.clock.now + e.timeout) :
    e.run frame body r = (⟨.crashed .deadlineOverflow, 0, false⟩, { r with clock := r.clock.afterReading }) := by
  unfold Replay.run
  exact if_pos h

theorem run_of_fits {r : TestRun σ} (h : ¬ clockLimit ≤ r.clock.now + e.timeout) :
    e.run frame body r =
      attemptsFrom e (r.clock.now + e.timeout) frame body attemptLimit 0 { r with clock := r.clock.afterReading } := by
  unfold Replay.run
  exact if_neg h

end Replay

/-! ## Calls of operations -/

namespace TestRun

section Bodies

variable {op : Operation} {frame : Option String} {body : Body σ α}

theorem execute_once (hreplay : ¬ op.replay = true) (frame : Option String) (body : Body σ α) (r : TestRun σ) :
    execute op frame body r = (((body r).1, none), (body r).2) := by
  unfold execute
  rw [if_neg hreplay]

/-- the answer of a call from its replay -/
def answerOf (e : Replay) (p : Replayed α × TestRun σ) : (Outcome α × Option String) × TestRun σ :=
  ((p.1.result, if p.1.exhausted then some (e.exhaustedMessage p.1.attempts) else none), p.2)

theorem answerOf_eq (e : Replay) (p : Replayed α × TestRun σ) :
    (let (replayed, r) := p
    ((replayed.result, if replayed.exhausted then some (e.exhaustedMessage replayed.attempts) else none), r)) =
      answerOf e p := rfl

theorem answerOf_result (e : Replay) (p : Replayed α × TestRun σ) : (answerOf e p).1.1 = p.1.result := rfl

theorem answerOf_warning (e : Replay) (p : Replayed α × TestRun σ) :
    (answerOf e p).1.2 = if p.1.exhausted then some (e.exhaustedMessage p.1.attempts) else none := rfl

theorem answerOf_run (e : Replay) (p : Replayed α × TestRun σ) : (answerOf e p).2 = p.2 := rfl

theorem execute_replay (hreplay : op.replay = true) (frame : Option String) (body : Body σ α) (r : TestRun σ) :
    execute op frame body r =
      answerOf (Replay.ofSettings r.settings) ((Replay.ofSettings r.settings).run frame body r) := by
  have hp := answerOf_eq (Replay.ofSettings r.settings) ((Replay.ofSettings r.settings).run frame body r)
  rw [execute, ← hp]
  exact if_pos hreplay

/-- the end of a call inside its step -/
def closing (p : (Outcome α × Option String) × TestRun σ) : Outcome α × TestRun σ :=
  (p.1.1, (warn p.1.2 p.2).record fun rec => rec.closeStep p.1.1.failure?)

theorem interceptStep_manual (op : Operation) (i : Invocation) (body : Body σ α) {r : TestRun σ}
    (hm : r.settings.manualTestSteps = true) :
    interceptStep op i body r = ((execute op i.frame body r).1.1, (execute op i.frame body r).2) := by
  unfold interceptStep
  exact if_pos hm

theorem interceptStep_eq (op : Operation) (i : Invocation) (body : Body σ α) {r : TestRun σ}
    (hm : ¬ r.settings.manualTestSteps = true) :
    interceptStep op i body r =
      closing (execute op i.frame body (r.record fun rec => rec.openStep (r.stepOf op i))) := by
  unfold interceptStep
  rw [if_neg hm]
  rfl

/-- the action that is recorded of a call -/
def actionOf (name : String) (op : Operation) (i : Invocation) (outcome : Outcome α) (now : Timestamp) : Action :=
  let action : Action := { name := name, actionId := op.id, origin := i.origin, element := i.element, timestamp := now }
  match outcome.failure? with
  | some f => action.failedWith (some f)
  | none => action

/-- the end of a call that is recorded as an action -/
def acting (name : String) (op : Operation) (i : Invocation) (p : (Outcome α × Option String) × TestRun σ) :
    Outcome α × TestRun σ :=
  (p.1.1, warn p.1.2 (p.2.record fun rec => rec.recordAction (actionOf name op i p.1.1 p.2.recorder.now)))

theorem interceptAction_eq (op : Operation) (i : Invocation) (body : Body σ α) (r : TestRun σ) :
    interceptAction op i body r = acting (r.actionName op i) op i (execute op i.frame body r) := rfl

theorem intercept_action {i : Invocation} {r : TestRun σ} (hop : r.registry.get? i.operation = some op)
    (hk : op.kind = .action) (body : Body σ α) : intercept i body r = interceptAction op i body r := by
  unfold intercept
  rw [hop]
  simp only [hk]

theorem intercept_step {i : Invocation} {r : TestRun σ} (hop : r.registry.get? i.operation = some op)
    (hk : ¬ op.kind = .action) (body : Body σ α) : intercept i body r = interceptStep op i body r := by
  unfold intercept
  rw [hop]
  cases hkind : op.kind with
  | action => exact absurd hkind hk
  | step => simp only [hkind]
  | composite => simp only [hkind]

theorem intercept_undeclared {i : Invocation} {r : TestRun σ} (hop : r.registry.get? i.operation = none)
    (body : Body σ α) : intercept i body r = (.failed (unknownOperation i.operation), r) := by
  unfold intercept
  rw [hop]

end Bodies

/-! ## Driver commands -/

theorem moves_command (name : String) (element : Option Element) (args : List String) (r : TestRun σ) :
    ∃ now, (command name element args r).2.recorder = r.recorder.moveTo now := by
  unfold command
  split
  · exact ⟨r.recorder.now, rfl⟩
  · exact ⟨_, rfl⟩

theorem moves_commands (ps : List Primitive) (r : TestRun σ) :
    ∃ now, (commands ps r).2.recorder = r.recorder.moveTo now := by
  induction ps generalizing r with
  | nil => exact ⟨r.recorder.now, rfl⟩
  | cons p ps ih =>
    obtain ⟨now, hnow⟩ := moves_command p.command p.element p.args r
    rw [commands]
    rcases hp : command p.command p.element p.args r with ⟨a | f | c, after⟩
    · rw [hp] at hnow
      obtain ⟨later, hlater⟩ := ih after
      rw [hnow] at hlater
      exact ⟨later, hlater⟩
    · rw [hp] at hnow
      exact ⟨now, hnow⟩
    · rw [hp] at hnow
      exact ⟨now, hnow⟩

theorem moves_unit (ps : List Primitive) (r : TestRun σ) :
    ∃ now, (unit ps r).2.recorder = r.recorder.moveTo now := by
  unfold unit
  split
  · exact ⟨r.recorder.now, rfl⟩
  · exact moves_commands ps r

/-- the action of a primitive, failed when the unit failed -/
def primitiveAction (c : Composite) (outcome : Outcome α) (now : Timestamp) (p : Primitive) : Action :=
  { name := p.name, actionId := p.command, origin := c.origin, element := p.element
    failed := outcome.failure?.isSome, timestamp := now }

/-- a unit with the actions of its primitives recorded -/
def recordPrimitives (c : Composite) (p : (Outcome α × Option String) × TestRun σ) :
    (Outcome α × Option String) × TestRun σ :=
  (p.1, p.2.record fun rec =>
    c.primitives.foldl (fun rec x => rec.recordAction (primitiveAction c p.1.1 p.2.recorder.now x)) rec)

theorem performComposite_eq (c : Composite) (r : TestRun σ) :
    performComposite c r =
      closing (recordPrimitives c (execute (compositeOperation c r) none (unit c.primitives)
        (r.record fun rec => rec.openStep (compositeStep c r)))) := rfl

theorem performComposites_cons (c : Composite) (cs : List Composite) :
    (performComposites (c :: cs) : Body σ Unit) = andThen (performComposite c) (performComposites cs) := rfl

theorem compositesDiscards_cons (c : Composite) (cs : List Composite) :
    (compositesDiscards (c :: cs) : TestRun σ → List Discard) =
      andThenDiscards (performComposite c) (compositeDiscards c) (compositesDiscards cs) := rfl

end TestRun

end TestTrail
