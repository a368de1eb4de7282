/-
Recording does not influence the test.

Two runs are alike when they have the same driver and the same clock, and differ in nothing but what recording is made
of: the record itself, the settings for manual steps and for masking, and what operations say about names and root
causes. A call of an operation, however it is recorded, is one execution of its body in a run that is alike
(`Executed`). So it gives the same outcome in both runs and leaves them alike again, and so does every call of a plan,
by recursion on the calls (`run_agrees`).
-/
import TestTrail.Proofs.Calls.Recording

namespace TestTrail

open Recorder

/-! ## What recording is made of -/

/-- the operation without what is recorded of it -/
def Operation.bare (op : Operation) : Operation := { id := op.id, kind := op.kind, replay := op.replay }

def Registry.bare (registry : Registry) : Registry := ⟨registry.operations.map Operation.bare⟩

/-- the settings without those for recording -/
def Settings.bare (s : Settings) : Settings := { s with manualTestSteps := false, maskPassword := true }

namespace Call

mutual

/-- the call without texts that are only recorded -/
def bare : Call → Call
  | operation target command children => operation target command (bareAll children)
  | composites batch => composites batch
  | step _ => step ""
  | message .. => message "" .info
  | secret _ => secret ""
  | fail text => fail text

def bareAll : List Call → List Call
  | [] => []
  | c :: cs => c.bare :: bareAll cs

end

end Call

variable {σ α β : Type}

/-- runs that differ in what is recorded, and in how -/
structure Alike (r t : TestRun σ) : Prop where
  driver : r.driver = t.driver
  clock : r.clock = t.clock
  settings : r.settings.bare = t.settings.bare
  registry : r.registry.bare = t.registry.bare

/-- the same result in runs that are alike -/
structure Same (p q : β × TestRun σ) : Prop where
  result : p.1 = q.1
  run : Alike p.2 q.2

/-- two bodies that do the same but for recording -/
def Agree (body other : Body σ α) : Prop := ∀ ⦃r t⦄, Alike r t → Same (body r) (other t)

variable {r t u : TestRun σ}

theorem Same.eq {p q : β × TestRun σ} (h : Same p q) : ∃ b r t, p = (b, r) ∧ q = (b, t) ∧ Alike r t := by
  obtain ⟨hresult, hrun⟩ := h
  refine ⟨p.1, p.2, q.2, rfl, ?_, hrun⟩
  rw [hresult]

theorem Alike.refl (r : TestRun σ) : Alike r r := ⟨rfl, rfl, rfl, rfl⟩

theorem Alike.symm (h : Alike r t) : Alike t r := ⟨h.driver.symm, h.clock.symm, h.settings.symm, h.registry.symm⟩

theorem Alike.trans (h : Alike r t) (k : Alike t u) : Alike r u :=
  ⟨h.driver.trans k.driver, h.clock.trans k.clock, h.settings.trans k.settings, h.registry.trans k.registry⟩

/-- whatever is recorded -/
theorem Alike.record (h : Alike r t) (f g : Recorder → Recorder) : Alike (r.record f) (t.record g) :=
  ⟨h.driver, h.clock, h.settings, h.registry⟩

theorem alike_record (r : TestRun σ) (f : Recorder → Recorder) : Alike r (r.record f) := ⟨rfl, rfl, rfl, rfl⟩

theorem alike_warn (warning : Option String) (r : TestRun σ) : Alike r (TestRun.warn warning r) := by
  cases warning with
  | none => exact Alike.refl r
  | some text => exact alike_record r fun rec => rec.recordMessage text .warning

/-- code that only records gives the same result, whatever it records -/
theorem Alike.only_records (h : Alike r t) (outcome : Outcome α) (f g : Recorder → Recorder) :
    Same (outcome, r.record f) (outcome, t.record g) := ⟨rfl, h.record f g⟩

theorem Alike.pause (h : Alike r t) (nanos : Nat) : Alike (r.pause nanos) (t.pause nanos) := by
  refine ⟨h.driver, ?_, h.settings, h.registry⟩
  simp only [TestRun.pause, h.clock]

theorem Alike.afterReading (h : Alike r t) :
    Alike { r with clock := r.clock.afterReading } { t with clock := t.clock.afterReading } := by
  refine ⟨h.driver, ?_, h.settings, h.registry⟩
  simp only [h.clock]

theorem Alike.withDriver (h : Alike r t) (driver : Driver) :
    Alike { r with driver := some driver } { t with driver := some driver } :=
  ⟨rfl, h.clock, h.settings, h.registry⟩

theorem Alike.replay (h : Alike r t) : Replay.ofSettings r.settings = Replay.ofSettings t.settings := by
  have hbare : Replay.ofSettings r.settings.bare = Replay.ofSettings t.settings.bare := by rw [h.settings]
  exact hbare

theorem get?_bare (registry : Registry) (id : String) :
    registry.bare.get? id = (registry.get? id).map Operation.bare := by
  unfold Registry.get? Registry.bare
  rw [List.find?_map]
  rfl

theorem Alike.declared (h : Alike r t) (id : String) :
    (r.registry.get? id).map Operation.bare = (t.registry.get? id).map Operation.bare := by
  rw [← get?_bare, ← get?_bare, h.registry]

theorem isAction_bare (registry : Registry) (id : String) :
    Call.isAction registry.bare id = Call.isAction registry id := by
  unfold Call.isAction
  rw [get?_bare]
  cases registry.get? id with
  | none => rfl
  | some op => rfl

theorem Alike.isAction (h : Alike r t) (id : String) : Call.isAction r.registry id = Call.isAction t.registry id := by
  rw [← isAction_bare, h.registry, isAction_bare]

/-! ## Bodies -/

theorem agree_andThen {first other rest more : Body σ Unit} (h : Agree first other) (k : Agree rest more) :
    Agree (andThen first rest) (andThen other more) := by
  intro r t hrt
  obtain ⟨outcome, after, later, hr, ht, halike⟩ := (h hrt).eq
  unfold andThen
  rw [hr, ht]
  cases outcome with
  | ok a => exact k halike
  | failed f => exact ⟨rfl, halike⟩
  | crashed c => exact ⟨rfl, halike⟩

namespace Replay

variable {body other : Body σ α}

theorem same_restoreFrame (h : Alike r t) (frame : Option String) :
    Same (restoreFrame frame r) (restoreFrame frame t) := by
  unfold restoreFrame
  rw [h.driver]
  cases t.driver with
  | none => exact ⟨rfl, h⟩
  | some driver =>
    simp only
    split
    · exact ⟨rfl, h.withDriver _⟩
    · exact ⟨rfl, h.withDriver _⟩

theorem agree_attempt (h : Agree body other) (frame : Option String) :
    Agree (attempt frame body) (attempt frame other) := by
  intro r t hrt
  obtain ⟨switched, before, start, hr, ht, halike⟩ := (same_restoreFrame hrt frame).eq
  unfold attempt
  rw [hr, ht]
  cases switched with
  | error f => exact ⟨rfl, halike⟩
  | ok _ => exact h halike

/-- attempt by attempt: what is rolled back is only recorded -/
theorem same_attemptsFrom (h : Agree body other) (e : Replay) (deadline : Nat) (frame : Option String)
    (fuel done : Nat) (hrt : Alike r t) :
    Same (attemptsFrom e deadline frame body fuel done r) (attemptsFrom e deadline frame other fuel done t) := by
  induction fuel generalizing done r t with
  | zero => exact ⟨rfl, hrt⟩
  | succ fuel ih =>
    obtain ⟨outcome, after, later, hr, ht, halike⟩ := (agree_attempt h frame hrt).eq
    rw [attemptsFrom, attemptsFrom, hr, ht]
    cases outcome with
    | ok a => exact ⟨rfl, halike⟩
    | crashed c => exact ⟨rfl, halike⟩
    | failed f =>
      have hread := halike.afterReading
      simp only
      rw [← halike.clock] at hread ⊢
      by_cases htransient : f.transient = true
      · rw [if_pos htransient, if_pos htransient]
        by_cases hover : deadline ≤ after.clock.now
        · rw [if_pos hover, if_pos hover]
          exact ⟨rfl, hread⟩
        · rw [if_neg hover, if_neg hover]
          -- the two rollbacks go back to different records, and pause for the same time
          exact ih (done + 1) ((hread.record _ _).pause _)
      · rw [if_neg htransient, if_neg htransient]
        exact ⟨rfl, halike⟩

theorem same_run (h : Agree body other) (e : Replay) (frame : Option String) (hrt : Alike r t) :
    Same (e.run frame body r) (e.run frame other t) := by
  have hread := hrt.afterReading
  by_cases hlimit : clockLimit ≤ r.clock.now + e.timeout
  · have hlimit' : clockLimit ≤ t.clock.now + e.timeout := by rwa [← hrt.clock]
    rw [run_of_overflow hlimit, run_of_overflow hlimit']
    exact ⟨rfl, hread⟩
  · have hlimit' : ¬ clockLimit ≤ t.clock.now + e.timeout := by rwa [← hrt.clock]
    rw [run_of_fits hlimit, run_of_fits hlimit', hrt.clock]
    rw [hrt.clock] at hread
    generalize attemptLimit = fuel
    exact same_attemptsFrom h e _ frame fuel 0 hread

end Replay

/-! ## Calls of operations -/

namespace TestRun

variable {body other : Body σ α} {op like : Operation}

theorem same_answerOf (e : Replay) {p q : Replayed α × TestRun σ} (h : Same p q) :
    Same (answerOf e p) (answerOf e q) := by
  refine ⟨?_, h.run⟩
  unfold answerOf
  rw [h.result]

theorem same_execute (h : Agree body other) (hop : op.bare = like.bare) (frame : Option String) (hrt : Alike r t) :
    Same (execute op frame body r) (execute like frame other t) := by
  have hreplay : op.replay = like.replay := by
    have hbare : op.bare.replay = like.bare.replay := by rw [hop]
    exact hbare
  by_cases hr : op.replay = true
  · rw [execute_replay hr, execute_replay (hreplay ▸ hr), ← hrt.replay]
    exact same_answerOf _ (Replay.same_run h _ frame hrt)
  · rw [execute_once hr, execute_once (hreplay ▸ hr)]
    obtain ⟨hresult, hrun⟩ := h hrt
    exact ⟨by rw [hresult], hrun⟩

/-- the call came to one execution of the body, in a run like `r` -/
def Executed (op : Operation) (frame : Option String) (body : Body σ α) (r : TestRun σ)
    (p : Outcome α × TestRun σ) : Prop :=
  ∃ t, Alike r t ∧ p.1 = (execute op frame body t).1.1 ∧ Alike (execute op frame body t).2 p.2

theorem alike_closing (p : (Outcome α × Option String) × TestRun σ) : Alike p.2 (closing p).2 := by
  have hwarn := alike_warn p.1.2 p.2
  exact hwarn.trans (alike_record _ fun rec => rec.closeStep p.1.1.failure?)

theorem alike_acting (name : String) (op : Operation) (i : Invocation)
    (p : (Outcome α × Option String) × TestRun σ) : Alike p.2 (acting name op i p).2 :=
  (alike_record p.2 _).trans (alike_warn p.1.2 _)

theorem alike_recordPrimitives (c : Composite) (p : (Outcome α × Option String) × TestRun σ) :
    Alike p.2 (recordPrimitives c p).2 := ⟨rfl, rfl, rfl, rfl⟩

/-- behind the attempts of a composite there is only recording -/
theorem alike_performComposite (c : Composite) (r : TestRun σ) :
    Alike (execute (compositeOperation c r) none (unit c.primitives)
      (r.record fun rec => rec.openStep (compositeStep c r))).2 (performComposite c r).2 := by
  rw [performComposite_eq]
  exact (alike_recordPrimitives c _).trans (alike_closing _)

theorem executed_interceptStep (op : Operation) (i : Invocation) (body : Body σ α) (r : TestRun σ) :
    Executed op i.frame body r (interceptStep op i body r) := by
  by_cases hm : r.settings.manualTestSteps = true
  · rw [interceptStep_manual op i body hm]
    exact ⟨r, Alike.refl r, rfl, Alike.refl _⟩
  · rw [interceptStep_eq op i body hm]
    exact ⟨_, alike_record r _, rfl, alike_closing _⟩

theorem executed_interceptAction (op : Operation) (i : Invocation) (body : Body σ α) (r : TestRun σ) :
    Executed op i.frame body r (interceptAction op i body r) := by
  rw [interceptAction_eq]
  exact ⟨r, Alike.refl r, rfl, alike_acting _ op i _⟩

theorem executed_intercept {i : Invocation} (hop : r.registry.get? i.operation = some op) (body : Body σ α) :
    Executed op i.frame body r (intercept i body r) := by
  by_cases hk : op.kind = .action
  · rw [intercept_action hop hk]
    exact executed_interceptAction op i body r
  · rw [intercept_step hop hk]
    exact executed_interceptStep op i body r

theorem executed_performComposite (c : Composite) (r : TestRun σ) :
    Executed (compositeOperation c r) none (unit c.primitives) r (performComposite c r) :=
  ⟨_, alike_record r _, rfl, alike_performComposite c r⟩

/-- one execution each, of bodies that agree -/
theorem same_of_executed (h : Agree body other) (hop : op.bare = like.bare) {frame : Option String} (hrt : Alike r t)
    {p q : Outcome α × TestRun σ} (hp : Executed op frame body r p) (hq : Executed like frame other t q) :
    Same p q := by
  obtain ⟨r', hr, hpresult, hprun⟩ := hp
  obtain ⟨t', ht, hqresult, hqrun⟩ := hq
  have halike : Alike r' t' := hr.symm.trans (hrt.trans ht)
  obtain ⟨hresult, hrun⟩ := same_execute h hop frame halike
  refine ⟨?_, hprun.symm.trans (hrun.trans hqrun)⟩
  rw [hpresult, hqresult, hresult]

theorem agree_intercept (h : Agree body other) (i : Invocation) : Agree (intercept i body) (intercept i other) := by
  intro r t hrt
  have hdeclared := hrt.declared i.operation
  cases hr : r.registry.get? i.operation with
  | none =>
    rw [hr] at hdeclared
    have ht : t.registry.get? i.operation = none := Option.map_eq_none_iff.1 hdeclared.symm
    rw [intercept_undeclared hr, intercept_undeclared ht]
    exact ⟨rfl, hrt⟩
  | some op =>
    rw [hr] at hdeclared
    obtain ⟨like, ht, hlike⟩ := Option.map_eq_some_iff.1 hdeclared.symm
    exact same_of_executed h hlike.symm hrt (executed_intercept hr body) (executed_intercept ht other)

/-! ## Driver commands -/

theorem agree_command (name : String) (element : Option Element) (args : List String) :
    Agree (command name element args : Body σ String) (command name element args) := by
  intro r t hrt
  unfold command
  rw [hrt.driver]
  cases t.driver with
  | none => exact ⟨rfl, hrt⟩
  | some driver => exact ⟨rfl, (hrt.withDriver _).pause _⟩

theorem agree_commands (ps : List Primitive) : Agree (commands ps : Body σ Unit) (commands ps) := by
  induction ps with
  | nil => exact fun r t hrt => ⟨rfl, hrt⟩
  | cons p ps ih =>
    intro r t hrt
    obtain ⟨outcome, after, later, hr, ht, halike⟩ := (agree_command p.command p.element p.args hrt).eq
    rw [commands, commands, hr, ht]
    cases outcome with
    | ok a => exact ih halike
    | failed f => exact ⟨rfl, halike⟩
    | crashed c => exact ⟨rfl, halike⟩

theorem agree_unit (ps : List Primitive) : Agree (unit ps : Body σ Unit) (unit ps) := by
  intro r t hrt
  unfold unit
  rw [hrt.driver]
  cases t.driver with
  | none => exact ⟨rfl, hrt⟩
  | some driver => exact agree_commands ps hrt

/-- an operation of its own is the same in every run -/
theorem compositeOperation_bare (c : Composite) (hrt : Alike r t) :
    (compositeOperation c r).bare = (compositeOperation c t).bare := by
  have hbare : ∀ u : TestRun σ, (compositeOperation c u).bare =
      ((u.registry.get? c.id).map Operation.bare).getD (Operation.ofKind c.id .composite).bare := by
    intro u
    unfold compositeOperation
    cases u.registry.get? c.id with
    | none => rfl
    | some op => rfl
  rw [hbare, hbare t, hrt.declared]

theorem agree_performComposites (cs : List Composite) :
    Agree (performComposites cs : Body σ Unit) (performComposites cs) := by
  induction cs with
  | nil => exact fun r t hrt => ⟨rfl, hrt⟩
  | cons c cs ih =>
    rw [performComposites_cons]
    refine agree_andThen (fun r t hrt => ?_) ih
    exact same_of_executed (agree_unit c.primitives) (compositeOperation_bare c hrt) hrt
      (executed_performComposite c r) (executed_performComposite c t)

end TestRun

/-! ## Calls -/

namespace Call

mutual

theorem run_agrees (c : Call) : Agree (c.run : Body σ Unit) c.bare.run := by
  cases c with
  | operation target command children =>
    have haction : Agree (TestRun.intercept target
        (TestRun.command (command.getD target.operation) target.element target.driverArgs) : Body σ String) _ :=
      TestRun.agree_intercept (TestRun.agree_command _ _ _) target
    have hstep : Agree (TestRun.intercept target (fun r => runAll children r) : Body σ Unit) _ :=
      TestRun.agree_intercept (runAll_agrees children) target
    intro r t hrt
    rw [bare, run, run, ← hrt.isAction]
    by_cases hk : isAction r.registry target.operation = true
    · rw [if_pos hk, if_pos hk]
      obtain ⟨hresult, hrun⟩ := haction hrt
      exact ⟨congrArg (fun outcome => outcome.map fun _ => ()) hresult, hrun⟩
    · rw [if_neg hk, if_neg hk]
      exact hstep hrt
  | composites batch => exact TestRun.agree_performComposites batch
  | step name =>
    exact fun r t hrt => hrt.only_records (.ok ()) (fun rec => rec.addStep name) fun rec => rec.addStep ""
  | message text level =>
    exact fun r t hrt =>
      hrt.only_records (.ok ()) (fun rec => rec.recordMessage text level) fun rec => rec.recordMessage "" .info
  | secret value =>
    exact fun r t hrt => hrt.only_records (.ok ()) (fun rec => rec.addSecret value) fun rec => rec.addSecret ""
  | fail text =>
    let failure : Failure := ⟨.assertion, text⟩
    exact fun r t hrt => hrt.only_records (.failed failure) (fun rec => rec.failCurrent (some failure)) _

theorem runAll_agrees (cs : List Call) : Agree (runAll cs : Body σ Unit) (runAll (bareAll cs)) := by
  cases cs with
  | nil => exact fun r t hrt => ⟨rfl, hrt⟩
  | cons c cs =>
    rw [bareAll, runAll_cons, runAll_cons]
    exact agree_andThen (run_agrees c) (runAll_agrees cs)

end

/-- **Recording never influences the test.** Two tests have calls that differ only in texts to be recorded, and run
with the same driver and the same clock. Their settings may differ in manual steps and masking, their operations in
templates, scenario texts, masked parameters and root causes, and all the rest of the two runs in any way: what is
recorded already, and whether the test is a scenario. Then the calls end alike, and the driver has come to the same
state, with the same journal. -/
theorem outcome_independent_of_recording (calls others : List Call) (r t : TestRun σ)
    (hcalls : bareAll calls = bareAll others) (hrt : Alike r t) :
    (runAll calls r).1 = (runAll others t).1 ∧ (runAll calls r).2.driver = (runAll others t).2.driver := by
  obtain ⟨hresult, hrun⟩ := runAll_agrees calls (Alike.refl r)
  obtain ⟨hresult', hrun'⟩ := runAll_agrees others hrt.symm
  rw [hcalls] at hresult hrun
  exact ⟨hresult.trans hresult'.symm, hrun.driver.trans hrun'.driver.symm⟩

/-- paying is tried again when a click fails -/
def paying (secret step : String) : List Call :=
  [.step step, .operation { operation := "pay" } none
    [.secret secret, .operation { operation := "click" } none [], .message step .info]]

/-- a new test whose first click finds a stale element -/
def clicking (settings : Settings) (declared : List Operation) : TestRun Unit :=
  { TestRun.start "buy" settings (.ofList declared) (.steady 0) {} noon () with
    driver := some (Driver.failNext {} "click" 1 ⟨.stale, "click"⟩) }

/-- the same test twice: the second time as a scenario that manages its steps itself, unmasked, with names and causes
for its operations, and behind a step that is open already; the driver sees the same two clicks -/
theorem clicks_independent_of_recording :
    let pay := Operation.ofKind "pay" .composite
    let click := (Operation.ofKind "click" .action).withoutReplay
    let r := clicking {} [pay, click]
    let scenario : TestRun Unit :=
      { clicking { manualTestSteps := true, maskPassword := false }
          [(pay.withTemplate "pay now").withRootCause .data none,
            (click.withScenarioText "I click").masking "text"] with
        cucumber := true }
    let t := scenario.record fun rec => rec.openStep (.new "checkout" "checkout" noon)
    bareAll (paying "hunter22" "confirm") = bareAll (paying "" "") ∧ Alike r t ∧
      ((runAll (paying "hunter22" "confirm") r).2.driver.map fun d => d.calls "click") = some 2 ∧
      (runAll (paying "hunter22" "confirm") r).1 = (runAll (paying "" "") t).1 ∧
      (runAll (paying "hunter22" "confirm") r).2.driver = (runAll (paying "" "") t).2.driver :=
  ⟨rfl, ⟨rfl, rfl, rfl, by decide⟩, by decide +kernel,
    outcome_independent_of_recording _ _ _ _ rfl ⟨rfl, rfl, rfl, by decide⟩⟩

end Call

end TestTrail
