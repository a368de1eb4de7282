/-
What holds of recording holds of whole tests.

`Respected P` says that a relation between two records is respected by everything that a call does to the record on its
own: the passing of time, actions, messages, a step around what is recorded, one stretch after another, and going back
from a failed attempt. Then it holds from the record before a body to the record behind it (`Obeys`): one lemma for each
way to put bodies together, with an induction on the attempts that the counter allows for replays (`obeys_attempts`).

`Lawful P` adds what the calls of a plan do besides: renaming, and failures that are put on a step. Then `run_obeys` has
the relation for all of them, by recursion on the calls. A relation that also respects the steps that a test opens on
its own holds of all calls; the others hold of calls without such steps (`Call.stepFree`).
-/
import TestTrail.Proofs.Calls.Equations

namespace TestTrail

open Recorder

variable {σ α : Type}

/-- a relation from a record to a later one; the list has the attempts that were discarded in between, and the flag says
that the code in between succeeded -/
structure Respected (P : Recorder → List Discard → Bool → Recorder → Prop) : Prop where
  moved : ∀ s time ok, P s [] ok (s.moveTo time)
  action : ∀ {s ds ok t}, P s ds ok t → ∀ a : Action, (ok = true → a.failed = false ∧ a.exception = none) →
    P s ds ok (t.recordAction a)
  message : ∀ {s ds ok t}, P s ds ok t → ∀ text level, P s ds ok (t.recordMessage text level)
  bracket : ∀ {s x ds ok t}, P (s.openStep x) ds ok t → x.Fresh → ∀ outcome : Option Failure,
    (ok = true → outcome = none) → P s ds ok (t.closeStep outcome)
  append : ∀ {s ds t more ok r}, P s ds true t → P t more ok r → P s (ds ++ more) ok r
  /-- after a failure the list does not matter -/
  failed : ∀ {s ds r}, P s ds false r → ∀ more, P s more false r
  discard : ∀ {s ds t}, P s ds false t → P s [⟨s, t⟩] true (t.rollback s.checkpoint)

/-- a relation that is respected by the calls of a plan, too -/
structure Lawful (P : Recorder → List Discard → Bool → Recorder → Prop) : Prop extends Respected P where
  renamed : ∀ {s r}, Renamed s r → ∀ ok, P s [] ok r
  failure : ∀ s f, P s [] false (s.failCurrent (some f))

theorem Respected.refl {P : Recorder → List Discard → Bool → Recorder → Prop} (law : Respected P) (s : Recorder)
    (ok : Bool) : P s [] ok s := law.moved s s.now ok

/-- the relation holds from the record before the body to the record behind it -/
def Obeys (P : Recorder → List Discard → Bool → Recorder → Prop) (body : Body σ α)
    (inside : TestRun σ → List Discard) : Prop :=
  ∀ r, P r.recorder (inside r) (body r).1.isOk (body r).2.recorder

section Laws

variable {P : Recorder → List Discard → Bool → Recorder → Prop}

/-- a body that lets time pass for the record, and nothing else -/
theorem obeys_of_moveTo (law : Respected P) {body : Body σ α}
    (h : ∀ r, ∃ now, (body r).2.recorder = r.recorder.moveTo now) : Obeys P body TestRun.nothing := by
  intro r
  obtain ⟨now, hr⟩ := h r
  rw [hr]
  exact law.moved r.recorder now _

/-- a body that does nothing -/
theorem obeys_pure (law : Respected P) (a : α) : Obeys P (fun r : TestRun σ => (.ok a, r)) TestRun.nothing :=
  fun _ => law.refl _ _

theorem obeys_andThen (law : Respected P) {first rest : Body σ Unit} {inside more : TestRun σ → List Discard}
    (h : Obeys P first inside) (k : Obeys P rest more) :
    Obeys P (andThen first rest) (andThenDiscards first inside more) := by
  intro r
  have hfirst := h r
  unfold andThen andThenDiscards
  rcases hr : first r with ⟨b | f | c, after⟩
  · rw [hr] at hfirst
    exact law.append hfirst (k after)
  · rw [hr] at hfirst
    exact law.failed hfirst _
  · rw [hr] at hfirst
    exact law.failed hfirst _

/-! ## Replays -/

section Replays

open Replay

variable {e : Replay} {deadline : Nat} {frame : Option String} {body : Body σ α} {inside : TestRun σ → List Discard}

theorem obeys_attempt (law : Respected P) (h : Obeys P body inside) :
    Obeys P (attempt frame body) fun r => inside (restoreFrame frame r).2 := by
  intro r
  have hsame := recorder_restoreFrame frame r
  rcases attempt_eq frame body r with ⟨f, hf⟩ | hbody
  · rw [hf, hsame]
    exact law.failed (law.refl _ false) _
  · rw [hbody, ← hsame]
    exact h _

/-- each attempt that is discarded is gone back from; the last one counts -/
theorem obeys_attempts (law : Respected P) (h : Obeys P body inside) (fuel done : Nat) (r : TestRun σ) :
    P r.recorder (discardsFrom e deadline frame body inside fuel r)
      (attemptsFrom e deadline frame body fuel done r).1.result.isOk
      (attemptsFrom e deadline frame body fuel done r).2.recorder := by
  have hattempts : Obeys P (attempt frame body) _ := obeys_attempt law h
  induction fuel generalizing done r with
  | zero => exact law.refl _ _
  | succ fuel ih =>
    have hattempt := hattempts r
    rw [discardsFrom]
    cases hnext : next? e deadline frame body r with
    | none =>
      obtain ⟨hresult, hrecorder⟩ := attemptsFrom_of_last hnext fuel done
      rw [hresult, hrecorder]
      exact hattempt
    | some next =>
      obtain ⟨hfailed, now, hnow⟩ := recorder_next hnext
      rw [hfailed] at hattempt
      have hback := law.append (law.discard hattempt) (law.moved _ now true)
      rw [← hnow] at hback
      rw [attemptsFrom_of_next hnext]
      exact law.append hback (ih (done + 1) next)

theorem obeys_replay (law : Respected P) (h : Obeys P body inside) (r : TestRun σ) :
    P r.recorder (e.discards frame body inside r) (e.run frame body r).1.result.isOk
      (e.run frame body r).2.recorder := by
  unfold Replay.discards
  by_cases hlimit : clockLimit ≤ r.clock.now + e.timeout
  · rw [run_of_overflow hlimit, if_pos hlimit]
    exact law.refl _ _
  · rw [run_of_fits hlimit, if_neg hlimit]
    generalize attemptLimit = fuel
    exact obeys_attempts law h fuel 0 { r with clock := r.clock.afterReading }

end Replays

/-! ## Calls of operations -/

namespace TestRun

section Bodies

variable {body : Body σ α} {inside : TestRun σ → List Discard}

theorem obeys_execute (law : Respected P) (op : Operation) (frame : Option String) (h : Obeys P body inside)
    (r : TestRun σ) :
    P r.recorder (executeDiscards op frame body inside r) (execute op frame body r).1.1.isOk
      (execute op frame body r).2.recorder := by
  unfold executeDiscards
  by_cases hreplay : op.replay = true
  · rw [execute_replay hreplay, if_pos hreplay, answerOf_result, answerOf_run]
    exact obeys_replay law h r
  · rw [execute_once hreplay, if_neg hreplay]
    exact h r

variable {s : Recorder} {ds : List Discard} {p : (Outcome α × Option String) × TestRun σ}

theorem obeys_warn (law : Respected P) {ok : Bool} {r : TestRun σ} (h : P s ds ok r.recorder)
    (warning : Option String) : P s ds ok (warn warning r).recorder := by
  cases warning with
  | none => exact h
  | some text => exact law.message h text .warning

theorem failure?_of_isOk {outcome : Outcome α} (h : outcome.isOk = true) : outcome.failure? = none := by
  cases outcome with
  | ok a => rfl
  | failed f => cases h
  | crashed c => rfl

theorem obeys_closing (law : Respected P) {x : Step} (hx : x.Fresh)
    (h : P (s.openStep x) ds p.1.1.isOk p.2.recorder) : P s ds (closing p).1.isOk (closing p).2.recorder :=
  law.bracket (obeys_warn law h p.1.2) hx _ failure?_of_isOk

theorem obeys_acting (law : Respected P) (name : String) (op : Operation) (i : Invocation)
    (h : P s ds p.1.1.isOk p.2.recorder) : P s ds (acting name op i p).1.isOk (acting name op i p).2.recorder := by
  refine obeys_warn law (r := p.2.record fun rec => _) (law.action h _ fun hok => ?_) p.1.2
  unfold actionOf
  rw [failure?_of_isOk hok]
  exact ⟨rfl, rfl⟩

theorem fresh_stepOf (r : TestRun σ) (op : Operation) (i : Invocation) : (r.stepOf op i).Fresh :=
  ⟨rfl, rfl, rfl, rfl, rfl⟩

theorem obeys_intercept (law : Respected P) (i : Invocation) (h : Obeys P body inside) :
    Obeys P (intercept i body) (interceptDiscards i body inside) := by
  intro r
  unfold interceptDiscards
  cases hop : r.registry.get? i.operation with
  | none =>
    rw [intercept_undeclared hop]
    exact law.refl _ _
  | some op =>
    simp only
    by_cases hk : op.kind = .action
    · rw [intercept_action hop hk, interceptAction_eq, if_pos (Or.inl hk)]
      exact obeys_acting law _ op i (obeys_execute law op i.frame h r)
    · rw [intercept_step hop hk]
      by_cases hm : r.settings.manualTestSteps = true
      · rw [interceptStep_manual op i body hm, if_pos (Or.inr hm)]
        exact obeys_execute law op i.frame h r
      · rw [interceptStep_eq op i body hm, if_neg (not_or.2 ⟨hk, hm⟩)]
        exact obeys_closing law (fresh_stepOf r op i)
          (obeys_execute law op i.frame h (r.record fun rec => rec.openStep (r.stepOf op i)))

/-! ## Composites -/

theorem obeys_actions (law : Respected P) {action : Primitive → Action} {ok : Bool}
    (haction : ok = true → ∀ x, (action x).failed = false ∧ (action x).exception = none) (ps : List Primitive)
    {t : Recorder} (h : P s ds ok t) : P s ds ok (ps.foldl (fun rec x => rec.recordAction (action x)) t) := by
  induction ps generalizing t with
  | nil => exact h
  | cons x ps ih => exact ih (law.action h (action x) fun hok => haction hok x)

theorem obeys_recordPrimitives (law : Respected P) (c : Composite) (h : P s ds p.1.1.isOk p.2.recorder) :
    P s ds (recordPrimitives c p).1.1.isOk (recordPrimitives c p).2.recorder := by
  refine obeys_actions law (fun hok x => ⟨?_, rfl⟩) c.primitives h
  have hnone : p.1.1.failure? = none := failure?_of_isOk hok
  unfold primitiveAction
  rw [hnone]
  rfl

end Bodies

theorem fresh_compositeStep (c : Composite) (r : TestRun σ) : (compositeStep c r).Fresh := ⟨rfl, rfl, rfl, rfl, rfl⟩

theorem obeys_performComposite (law : Respected P) (c : Composite) :
    Obeys P (performComposite c : Body σ Unit) (compositeDiscards c) := by
  have hunit : Obeys P (unit c.primitives : Body σ Unit) nothing := obeys_of_moveTo law (moves_unit c.primitives)
  intro r
  have hexecute := obeys_execute law (compositeOperation c r) none hunit
    (r.record fun rec => rec.openStep (compositeStep c r))
  rw [performComposite_eq]
  exact obeys_closing law (fresh_compositeStep c r) (obeys_recordPrimitives law c hexecute)

theorem obeys_performComposites (law : Respected P) (cs : List Composite) :
    Obeys P (performComposites cs : Body σ Unit) (compositesDiscards cs) := by
  induction cs with
  | nil => exact obeys_pure law ()
  | cons c cs ih =>
    rw [performComposites_cons, compositesDiscards_cons]
    exact obeys_andThen law (obeys_performComposite law c) ih

end TestRun

/-! ## Calls -/

namespace Call

mutual

/-- the call opens no steps on its own -/
def stepFree : Call → Bool
  | operation _ _ children => stepFreeAll children
  | step _ => false
  | composites _ | message .. | secret _ | fail _ => true

def stepFreeAll : List Call → Bool
  | [] => true
  | c :: cs => c.stepFree && stepFreeAll cs

end

theorem isOk_map (outcome : Outcome String) : (outcome.map fun _ => ()).isOk = outcome.isOk := by
  cases outcome with
  | _ => rfl

mutual

theorem run_obeys (law : Lawful P) (c : Call)
    (hsteps : c.stepFree = true ∨ ∀ s name, P s [] true (s.addStep name)) :
    Obeys P (c.run : Body σ Unit) c.discards := by
  cases c with
  | operation target command children =>
    have haction : Obeys P (TestRun.intercept target
        (TestRun.command (command.getD target.operation) target.element target.driverArgs) : Body σ String) _ :=
      TestRun.obeys_intercept law.toRespected target (obeys_of_moveTo law.toRespected (TestRun.moves_command _ _ _))
    have hstep : Obeys P (TestRun.intercept target (fun r => runAll children r) : Body σ Unit) _ :=
      TestRun.obeys_intercept law.toRespected target (runAll_obeys law children hsteps)
    intro r
    rw [run, discards]
    by_cases hk : isAction r.registry target.operation = true
    · rw [if_pos hk, if_pos hk]
      simp only [isOk_map]
      exact haction r
    · rw [if_neg hk, if_neg hk]
      exact hstep r
  | composites batch => exact TestRun.obeys_performComposites law.toRespected batch
  | step name =>
    intro r
    exact hsteps.resolve_left Bool.false_ne_true r.recorder name
  | message text level => exact fun r => law.message (obeys_pure law.toRespected () r) text level
  | secret value => exact fun r => law.renamed (renamed_addSecret r.recorder value) true
  | fail text => exact fun r => law.failure r.recorder _

theorem runAll_obeys (law : Lawful P) (cs : List Call)
    (hsteps : stepFreeAll cs = true ∨ ∀ s name, P s [] true (s.addStep name)) :
    Obeys P (runAll cs : Body σ Unit) (discardsAll cs) := by
  cases cs with
  | nil => exact obeys_pure law.toRespected ()
  | cons c cs =>
    rw [stepFreeAll, Bool.and_eq_true] at hsteps
    rw [runAll_cons, discardsAll_cons]
    exact obeys_andThen law.toRespected (run_obeys law c (hsteps.imp And.left id))
      (runAll_obeys law cs (hsteps.imp And.right id))

end

end Call

end Laws

end TestTrail
