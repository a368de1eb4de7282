/-
What a test makes its driver do.

When no failure of the driver is transient, a run of calls is its deeds, carried out (`does_runAll`): each replay makes
one attempt, and the switches at its start leave no trace but in the journal. So of a valid plan nothing is skipped, and
nothing is done behind the first failure (`valid_plan_carried_out`).

The one thing that can come between is a deadline that does not fit the clock. The settings of a suite may ask for it,
and then a call crashes before it has done anything, though the plan is valid (`no_click_under_endless_timeout`).
-/
import TestTrail.Plan.Suite
import TestTrail.Proofs.Calls.Deeds
import TestTrail.Proofs.Calls.Validity

namespace TestTrail

open Recorder

variable {σ α : Type}

namespace Driver

variable {d : Driver}

/-- the switches of a steady driver succeed, and change nothing else -/
theorem Steady.restoreFrame {r : TestRun σ} (h : d.Steady) (hr : r.driver = some d) (frame : Option String) :
    ∃ switched, Replay.restoreFrame frame r = (.ok (), { r with driver := some switched }) ∧ switched.Steady ∧
      switched.quiet = d.quiet := by
  have htop : d.toDefaultContent = (.ok (), { d.note .defaultContent with contentScript := [] }) := by
    simp [toDefaultContent, nextOutcome, h.content]
  cases frame with
  | none =>
    refine ⟨_, restoreFrame_top hr htop (Or.inl rfl), ⟨h.queued, h.permanent, rfl, h.frames⟩, ?_⟩
    simp [quiet, note, JournalEntry.isCommand, h.content]
  | some name =>
    have hinside : ({ d.note .defaultContent with contentScript := [] } : Driver).toFrame name =
        (.ok (), { (d.note .defaultContent).note (.frame name) with contentScript := [], frameScript := [] }) := by
      simp [toFrame, nextOutcome, note, h.frames]
    refine ⟨_, restoreFrame_frame hr htop hinside, ⟨h.queued, h.permanent, rfl, rfl⟩, ?_⟩
    simp [quiet, note, JournalEntry.isCommand, h.content, h.frames]

end Driver

/-! ## Bodies -/

/-- at some moment from one test to a later one, the deadline of a replay would not fit the clock -/
def Overflows (r later : TestRun σ) : Prop :=
  ∃ moment, r.clock.Later moment ∧ moment.Later later.clock ∧
    Replay.clockLimit ≤ moment.now + r.settings.replayTimeoutNanos

theorem Outcome.map_unit (outcome : Outcome Unit) : (outcome.map fun _ => ()) = outcome := by
  cases outcome <;> rfl

/-- a result of carrying out deeds with a driver -/
def Did (deeds : List Deed) (d : Driver) (p : Outcome α × TestRun σ) : Prop :=
  ∃ after, p.2.driver = some after ∧ (p.1.map fun _ => (), after.quiet) = d.quiet.carryOut deeds

/-- the result of deeds, or a crash for want of a deadline -/
def DidOrCrashed (start : TestRun σ) (deeds : List Deed) (d : Driver) (p : Outcome α × TestRun σ) : Prop :=
  (p.1 = .crashed .deadlineOverflow ∧ Overflows start p.2) ∨ Did deeds d p

/-- From some test on, with a driver that fails for good only, the body comes to the deeds. -/
def Does (start : TestRun σ) (deeds : List Deed) (body : Body σ α) : Prop :=
  ∀ ⦃r d⦄, Onward start r → r.driver = some d → d.Steady → DidOrCrashed start deeds d (body r)

section Bodies

variable {start r : TestRun σ} {deeds more : List Deed} {body : Body σ α} {d : Driver}

theorem Did.steady {p : Outcome α × TestRun σ} (h : Did deeds d p) (hd : d.Steady) :
    ∃ after, p.2.driver = some after ∧ after.Steady ∧ p.1.isTransient = false := by
  obtain ⟨after, hdriver, heq⟩ := h
  have hcarried := (Driver.steady_quiet.2 hd).carryOut deeds
  rw [← heq] at hcarried
  refine ⟨after, hdriver, Driver.steady_quiet.1 hcarried.1, ?_⟩
  rw [← hcarried.2]
  cases p.1 <;> rfl

theorem DidOrCrashed.settled {p : Outcome α × TestRun σ} (h : DidOrCrashed start deeds d p) (hd : d.Steady) :
    p.1.isTransient = false := by
  rcases h with ⟨hcrash, -⟩ | hdid
  · rw [hcrash]
    rfl
  · obtain ⟨_, _, _, hsettled⟩ := hdid.steady hd
    exact hsettled

theorem does_andThen {first rest : Body σ Unit} (h : Does start deeds first) (hfirst : ∀ r, Onward r (first r).2)
    (k : Does start more rest) : Does start (deeds ++ more) (andThen first rest) := by
  intro r d hr hdriver hd
  have hdid := h hr hdriver hd
  have hafter := passage_onward.trans hr (hfirst r)
  unfold andThen
  rcases hp : first r with ⟨a | f | c, after⟩ <;> rw [hp] at hdid hafter
  · rcases hdid with ⟨hcrash, -⟩ | hdid
    · cases hcrash
    -- the rest goes on with the driver that the first body left
    · obtain ⟨next, hnext, hsteady, -⟩ := hdid.steady hd
      obtain ⟨_, hnext', heq⟩ := hdid
      cases hnext.symm.trans hnext'
      refine (k hafter hnext hsteady).imp_right fun ⟨last, hlast, hmore⟩ => ⟨last, hlast, ?_⟩
      rw [Driver.carryOut_append, ← heq]
      exact hmore
  · rcases hdid with ⟨hcrash, -⟩ | ⟨last, hlast, heq⟩
    · cases hcrash
    · refine Or.inr ⟨last, hlast, ?_⟩
      rw [Driver.carryOut_append, ← heq]
      rfl
  · refine hdid.imp_right fun ⟨last, hlast, heq⟩ => ⟨last, hlast, ?_⟩
    rw [Driver.carryOut_append, ← heq]
    rfl

theorem does_attempt (h : Does start deeds body) (frame : Option String) :
    Does start deeds (Replay.attempt frame body) := by
  intro r d hr hdriver hd
  obtain ⟨switched, hrestored, hsteady, hquiet⟩ := hd.restoreFrame hdriver frame
  have honward := passage_onward.trans hr (beside_onward.restoreFrame frame r)
  rw [hrestored] at honward
  rw [attempt_restored hrestored]
  have hdid := h honward rfl hsteady
  unfold DidOrCrashed Did at hdid
  rwa [hquiet] at hdid

/-- a replay makes one attempt, or has no deadline -/
theorem does_execute (h : Does start deeds body) (op : Operation) (frame : Option String) (hr : Onward start r)
    (hdriver : r.driver = some d) (hd : d.Steady) :
    DidOrCrashed start deeds d
      ((TestRun.execute op frame body r).1.1, (TestRun.execute op frame body r).2) := by
  by_cases hreplay : op.replay = true
  · rw [TestRun.execute_replay hreplay, TestRun.answerOf_result, TestRun.answerOf_run]
    by_cases hlimit : Replay.clockLimit ≤ r.clock.now + (Replay.ofSettings r.settings).timeout
    · rw [Replay.run_of_overflow hlimit]
      have hover : Replay.clockLimit ≤ r.clock.now + start.settings.replayTimeoutNanos := by
        rw [← hr.timeout]
        exact hlimit
      exact Or.inl ⟨rfl, r.clock, hr.clock, Clock.later_afterReading r.clock, hover⟩
    · have hattempt := does_attempt h frame (passage_onward.trans hr (passage_onward.reading r)) hdriver hd
      rw [Trial.run_of_settled (Nat.not_le.1 hlimit) (hattempt.settled hd)]
      exact hattempt
  · rw [TestRun.execute_once hreplay]
    exact h hr hdriver hd

theorem does_executed {op : Operation} {frame : Option String} {p : Outcome α × TestRun σ}
    (h : Does start deeds body) (hr : Onward start r) (hdriver : r.driver = some d) (hd : d.Steady)
    (hp : TestRun.Executed op frame body r p) : DidOrCrashed start deeds d p := by
  obtain ⟨t, hstart, hresult, hend⟩ := hp
  have hdid := does_execute h op frame (passage_onward.trans hr (passage_onward.alike hstart))
    (hstart.driver.symm.trans hdriver) hd
  unfold DidOrCrashed Did Overflows at hdid ⊢
  rwa [hresult, ← hend.driver, ← hend.clock]

theorem does_intercept (h : Does start deeds body) {i : Invocation}
    (hdeclared : start.registry.get? i.operation ≠ none) : Does start deeds (TestRun.intercept i body) := by
  intro r d hr hdriver hd
  obtain ⟨op, hop⟩ := Option.ne_none_iff_exists'.1 (mt (hr.get?_eq_none i.operation).1 hdeclared)
  exact does_executed h hr hdriver hd (TestRun.executed_intercept hop body)

/-! ## Commands -/

theorem does_command (p : Primitive) :
    Does start [.perform p] (TestRun.command p.command p.element p.args : Body σ String) := by
  intro r d hr hdriver hd
  refine Or.inr ?_
  unfold TestRun.command Did
  simp only [hdriver, Driver.carryOut, Driver.quiet_execute]
  rcases d.execute p.command p.element p.args with ⟨f | answer, next⟩
  · exact ⟨next, rfl, rfl⟩
  · exact ⟨next, rfl, rfl⟩

/-- a body without its value -/
def forget (body : Body σ α) : Body σ Unit := fun r => ((body r).1.map fun _ => (), (body r).2)

theorem does_forget (h : Does start deeds body) : Does start deeds (forget body) := by
  intro r d hr hdriver hd
  refine (h hr hdriver hd).imp ?_ ?_
  · rintro ⟨hcrash, hover⟩
    exact ⟨by rw [forget, hcrash]; rfl, hover⟩
  · rintro ⟨after, hafter, heq⟩
    refine ⟨after, hafter, ?_⟩
    rw [← heq, forget]
    cases (body r).1 <;> rfl

theorem commands_cons (p : Primitive) (ps : List Primitive) :
    (TestRun.commands (p :: ps) : Body σ Unit) =
      andThen (forget (TestRun.command p.command p.element p.args)) (TestRun.commands ps) := by
  funext r
  unfold andThen forget
  rw [TestRun.commands]
  rcases TestRun.command p.command p.element p.args r with ⟨answer | f | c, after⟩ <;> rfl

theorem does_commands (ps : List Primitive) :
    Does start (ps.map .perform) (TestRun.commands ps : Body σ Unit) := by
  induction ps with
  | nil => exact fun r d hr hdriver hd => Or.inr ⟨d, hdriver, rfl⟩
  | cons p ps ih =>
    rw [commands_cons, List.map_cons, ← List.singleton_append]
    exact does_andThen (does_forget (does_command p)) (beside_onward.command p.command p.element p.args) ih

theorem does_unit (ps : List Primitive) : Does start (ps.map .perform) (TestRun.unit ps : Body σ Unit) := by
  intro r d hr hdriver hd
  unfold TestRun.unit
  rw [hdriver]
  exact does_commands ps hr hdriver hd

theorem does_performComposites (cs : List Composite) :
    Does start (cs.flatMap fun c => c.primitives.map .perform) (TestRun.performComposites cs : Body σ Unit) := by
  induction cs with
  | nil => exact fun r d hr hdriver hd => Or.inr ⟨d, hdriver, rfl⟩
  | cons c cs ih =>
    rw [TestRun.performComposites_cons, List.flatMap_cons]
    refine does_andThen (fun r d hr hdriver hd => ?_) (beside_onward.performComposite c) ih
    exact does_executed (does_unit c.primitives) hr hdriver hd (TestRun.executed_performComposite c r)

/-- code that only records comes to nothing -/
theorem does_record (f : Recorder → Recorder) : Does start [] fun r : TestRun σ => (.ok (), r.record f) :=
  fun _ d _ hdriver _ => Or.inr ⟨d, hdriver, rfl⟩

end Bodies

/-! ## Calls -/

namespace Call

variable {start : TestRun σ}

theorem Sound.declared {registry : Registry} {c : Invocation × List Call} (h : Sound registry c) :
    registry.get? c.1.operation ≠ none := by
  obtain ⟨op, hop, -⟩ := h
  simp [hop]

mutual

theorem does_run (c : Call) (h : ∀ x ∈ c.called, Sound start.registry x) :
    Does start (c.deeds start.registry) (c.run : Body σ Unit) := by
  cases c with
  | operation target command children =>
    rw [called, List.forall_mem_cons] at h
    have haction : Does start _ (forget (TestRun.perform target (command.getD target.operation)) : Body σ Unit) :=
      does_forget (does_intercept (does_command ⟨_, target.element, target.driverArgs⟩) h.1.declared)
    have hstep := does_intercept (does_runAll children h.2) h.1.declared
    intro r d hr hdriver hd
    rw [deeds, run, ← hr.isAction]
    by_cases hk : isAction r.registry target.operation = true
    · rw [if_pos hk, if_pos hk]
      exact haction hr hdriver hd
    · rw [if_neg hk, if_neg hk]
      exact hstep hr hdriver hd
  | composites batch => exact does_performComposites batch
  | step name => exact does_record fun rec => rec.addStep name
  | message text level => exact does_record fun rec => rec.recordMessage text level
  | secret value => exact does_record fun rec => rec.addSecret value
  | fail text => exact fun r d hr hdriver hd => Or.inr ⟨d, hdriver, rfl⟩

theorem does_runAll (cs : List Call) (h : ∀ x ∈ calledIn cs, Sound start.registry x) :
    Does start (deedsIn start.registry cs) (runAll cs : Body σ Unit) := by
  cases cs with
  | nil => exact fun r d hr hdriver hd => Or.inr ⟨d, hdriver, rfl⟩
  | cons c cs =>
    rw [calledIn, List.forall_mem_append] at h
    rw [runAll_cons, deedsIn]
    exact does_andThen (does_run c h.1) (beside_onward.run c) (does_runAll cs h.2)

end

end Call

/-! ## Plans -/

namespace Plan

/-- **A valid plan is carried out, from left to right.** A plan is valid exactly when every operation that a test calls,
at any depth, is declared, and holds no calls if its last declaration is an action. When the calls of a test of a valid
plan run, it makes no difference what would be done on an operation that nobody declared. With the driver of a plan in
which no failure is transient, the run comes to the deeds of the test, from left to right: the driver has executed them
up to the first one that fails, or all, and the run ends in accord with that; or else it crashed, at a moment so late
that the deadline of a replay does not fit the clock. -/
theorem valid_plan_carried_out (p : Plan) :
    (p.problem? = none ↔ ∀ t ∈ p.tests, ∀ c ∈ Call.calledIn t.calls,
      ∃ op, Registry.lastDeclared p.operations c.1.operation = some op ∧ (op.kind = .action → c.2 = [])) ∧
    (p.problem? = none → ∀ t ∈ p.tests, ∀ r : TestRun σ, r.registry = p.registry →
      (∀ undeclared, Call.runAllOr undeclared t.calls r = Call.runAll t.calls r) ∧
      ∀ (driver : DriverPlan) (attempt : UInt32), r.driver = some (driver.build attempt) →
        (∀ f ∈ driver.failures, f.failure.transient = false) →
        ((Call.runAll t.calls r).1 = .crashed .deadlineOverflow ∧ Overflows r (Call.runAll t.calls r).2) ∨
          ∃ executed,
            Driver.Ends (driver.build attempt) (Call.deedsIn p.registry t.calls) executed (Call.runAll t.calls r).1 ∧
            (Call.runAll t.calls r).2.driver.map Driver.commands = some (executed.map Primitive.command)) := by
  have hsound : ∀ c : Invocation × List Call, Call.Sound p.registry c ↔
      ∃ op, Registry.lastDeclared p.operations c.1.operation = some op ∧ (op.kind = .action → c.2 = []) := by
    intro c
    rw [Call.Sound, registry, Registry.get?_ofList]
  refine ⟨by simp only [p.problem?_eq_none_iff, hsound], fun hvalid t ht r hr => ?_⟩
  have hcalls : ∀ c ∈ Call.calledIn t.calls, Call.Sound r.registry c := by
    rw [hr]
    exact p.problem?_eq_none_iff.1 hvalid t ht
  refine ⟨fun undeclared => Call.runAllOr_of_sound hcalls, fun driver attempt hdriver hfailures => ?_⟩
  obtain ⟨hsteady, hjournal⟩ := DriverPlan.steady_build hfailures attempt
  have hquiet : (driver.build attempt).quiet = driver.build attempt := by
    unfold Driver.quiet
    rw [hjournal, List.filter_nil, ← hjournal]
  refine (Call.does_runAll t.calls hcalls (beside_onward.refl r) hdriver hsteady).imp_right ?_
  rintro ⟨after, hafter, hcarried⟩
  rw [hquiet, hr] at hcarried
  obtain ⟨executed, hends, hcommands⟩ := Driver.ends_carryOut (Call.deedsIn p.registry t.calls) (driver.build attempt)
  rw [← hcarried] at hends hcommands
  refine ⟨executed, ?_, ?_⟩
  · rwa [Outcome.map_unit] at hends
  · rw [hafter, Option.map_some, ← Driver.commands_quiet, hcommands]
    simp [Driver.commands, hjournal]

/-- a click inside a step, a composite whose second primitive fails for good, and a failure of the test's own -/
def buy : PlanTest :=
  { name := "buy", driver := { failures := [{ command := "submit", kind := "driver" }] }
    calls :=
      [.operation { operation := "pay" } none [.operation { operation := "click" } (some "tap") []],
        .composites [{ primitives := [{ command := "type" }, { command := "submit" }] }], .fail "no receipt"] }

/-- a click is declared as a step first, and then as an action -/
def order : Plan :=
  { context := "shop", operations := [.ofKind "click" .step, .ofKind "pay" .step, .ofKind "click" .action]
    tests := [buy] }

/-- the first execution of a test of the plan, on a clock that only pauses move -/
def begun (settings : Settings) (t : PlanTest) : TestRun Unit :=
  t.begin { settings := settings, registry := order.registry, context := order.context } 0
    { clock := .steady 0, now := noon }

/-- the click, the first primitive and the second one, which fails; what is behind it is not done -/
theorem order_carried_out :
    order.problem? = none ∧ (∀ f ∈ buy.driver.failures, f.failure.transient = false) ∧
      (∀ undeclared, Call.runAllOr undeclared buy.calls (begun {} buy) = Call.runAll buy.calls (begun {} buy)) ∧
      (Call.runAll buy.calls (begun {} buy)).1 = .failed ⟨.driver, "submit"⟩ ∧
      ∃ executed, Driver.Ends (buy.driver.build 0) (Call.deedsIn order.registry buy.calls) executed
          (.failed ⟨.driver, "submit"⟩) ∧
        executed.map Primitive.command = ["tap", "type", "submit"] := by
  have hvalid : order.problem? = none := by decide +kernel
  have hfailures : ∀ f ∈ buy.driver.failures, f.failure.transient = false := by decide
  have hfailed : (Call.runAll buy.calls (begun {} buy)).1 = .failed ⟨.driver, "submit"⟩ := by decide +kernel
  have hjournal : (Call.runAll buy.calls (begun {} buy)).2.driver.map Driver.commands =
      some ["tap", "type", "submit"] := by decide +kernel
  obtain ⟨hsame, hdriven⟩ := (valid_plan_carried_out order).2 hvalid buy (List.mem_singleton.2 rfl) (begun {} buy) rfl
  refine ⟨hvalid, hfailures, hsame, hfailed, ?_⟩
  rcases hdriven buy.driver 0 rfl hfailures with ⟨hcrash, -⟩ | ⟨executed, hends, hcommands⟩
  · rw [hfailed] at hcrash
    cases hcrash
  · rw [hfailed] at hends
    exact ⟨executed, hends, Option.some.inj (hcommands.symm.trans hjournal)⟩

/-- a test of one click, without any failure -/
def oneClick : PlanTest := { name := "look", calls := [.operation { operation := "click" } none []] }

/-- settings that a suite may start with, and under which nothing that is replayed can be done -/
def endless : Settings := { replayTimeout := Word.limit64 - 1 }

/-- the plan is valid and no failure is scripted, but the click crashes before the driver has done anything -/
theorem no_click_under_endless_timeout :
    let r := begun endless oneClick
    endless.problem? = none ∧ { order with tests := [oneClick] }.problem? = none ∧ oneClick.driver.failures = [] ∧
      Call.deedsIn order.registry oneClick.calls = [.perform { command := "click" }] ∧
      (Call.runAll oneClick.calls r).1 = .crashed .deadlineOverflow ∧
      (Call.runAll oneClick.calls r).2.driver.map Driver.commands = some [] := by
  decide +kernel

end Plan

end TestTrail
