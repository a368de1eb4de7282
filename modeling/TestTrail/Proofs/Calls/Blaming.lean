/-
A failing test blames one place.

`Call.culprit` follows the run of a call to what its failure is put on: the command or the composite that failed, in the
last attempt of all replays around it, or the innermost open step where nothing that is recorded failed by itself. A body
is `Blaming` when, started on a record without a flaw, it leaves the failure it ends with at the place of this culprit, or
nowhere if there is none. That is what `Recorder.Blamed` says. It does not depend on the record before the body, so the
end of a call finds it whatever happened inside.

Two more facts are needed of a body, and together they are a law of recording (`Clean`). A success leaves a record
without a flaw. So does a failed attempt once it has been rolled back, since all it recorded lies on top of the record
before it; this is where the test's own steps have to stand on top. And behind a body the same steps are open as before.
-/
import TestTrail.Proofs.Calls.Attempts
import TestTrail.Proofs.Calls.Replaying
import TestTrail.Proofs.Calls.Scripts
import TestTrail.Proofs.Recorder.Blame

namespace TestTrail

open Recorder

variable {σ α : Type}

/-! ## Who is to blame -/

/-- a composite as what a failure is put on; its primitives fail with it -/
def Composite.culprit (c : Composite) : Culprit :=
  { id := c.id, origin := c.origin, parts := c.primitives.map fun p => (p.command, p.element) }

/-- one after another: the first to fail decides -/
def andThenCulprit (first : Body σ Unit) (who more : TestRun σ → Option Culprit) (r : TestRun σ) : Option Culprit :=
  match first r with
  | (.ok _, r) => more r
  | _ => who r

namespace TestRun

/-- who is to blame in the last attempt of a call; nobody when the way to its frame fails -/
def lastCulprit (op : Operation) (frame : Option String) (body : Body σ α) (who : TestRun σ → Option Culprit)
    (r : TestRun σ) : Option Culprit :=
  if op.replay then
    match Replay.restoreFrame frame (lastStart op frame body r) with
    | (.ok (), r) => who r
    | (.error _, _) => none
  else who r

/-- who is to blame for a call that has a step: its own step, if nobody inside is -/
def stepCulprit (op : Operation) (i : Invocation) (body : Body σ α) (who : TestRun σ → Option Culprit)
    (r : TestRun σ) : Option Culprit :=
  if r.settings.manualTestSteps then lastCulprit op i.frame body who r
  else
    (lastCulprit op i.frame body who (r.record fun rec => rec.openStep (r.stepOf op i))).or
      (some { id := op.id, origin := i.origin })

def compositesCulprit : List Composite → TestRun σ → Option Culprit
  | [], _ => none
  | c :: cs, r => andThenCulprit (performComposite c) (fun _ => some c.culprit) (compositesCulprit cs) r

end TestRun

namespace Call

mutual

/-- who is to blame when the call fails -/
def culprit : Call → TestRun σ → Option Culprit
  | operation target _ children, r =>
    match r.registry.get? target.operation with
    | none => none
    | some op =>
      if op.kind = .action then some { id := op.id, origin := target.origin }
      else r.stepCulprit op target (fun r => runAll children r) (fun r => culpritAll children r)
  | composites batch, r => r.compositesCulprit batch
  | fail _, r => r.recorder.culprits.head?
  | _, _ => none

def culpritAll : List Call → TestRun σ → Option Culprit
  | [], _ => none
  | c :: cs, r =>
    match c.run r with
    | (.ok _, r) => culpritAll cs r
    | _ => c.culprit r

end

theorem culpritAll_cons (c : Call) (cs : List Call) :
    (culpritAll (c :: cs) : TestRun σ → Option Culprit) = andThenCulprit c.run c.culprit (culpritAll cs) := rfl

end Call

/-! ## Bodies -/

/-- more is recorded on top, in the same open steps, and without a flaw if the code in between succeeded -/
structure Clean (s : Recorder) (_ : List Discard) (ok : Bool) (r : Recorder) : Prop where
  continues : Continues s r
  culprits : r.culprits = s.culprits
  good : ok = true → Good s → Good r

theorem clean_renamed {s r : Recorder} (h : Renamed s r) (ok : Bool) : Clean s [] ok r :=
  ⟨h.continues, culprits_renamed h, fun _ hg => h.good hg⟩

theorem clean_lawful : Lawful Clean where
  moved s time ok := clean_renamed (renamed_moveTo s time) ok
  renamed h ok := clean_renamed h ok
  action h a ha := by
    refine ⟨h.continues.trans ((Extends.refl _).recordAction a).continues, ?_, fun hok hg => ?_⟩
    · rw [culprits_recordAction]
      exact h.culprits
    · exact (h.good hok hg).recordAction (ha hok).1 (ha hok).2
  message h text level := by
    refine ⟨h.continues.trans ((Extends.refl _).recordMessage text level).continues, ?_, fun hok hg => ?_⟩
    · rw [culprits_recordMessage]
      exact h.culprits
    · exact (h.good hok hg).recordMessage text level
  failure s f := ⟨((Extends.refl s).failCurrent _).continues, culprits_failCurrent s _, fun hok => by cases hok⟩
  bracket h hx outcome ho := by
    refine ⟨h.continues.bracket outcome, ?_, fun hok hg => ?_⟩
    · rw [culprits_closeStep, h.culprits, culprits_openStep, List.tail_cons]
    · rw [ho hok]
      exact (h.good hok (hg.openStep hx)).closeStep
  append h k :=
    ⟨h.continues.trans k.continues, k.culprits.trans h.culprits, fun hok hg => k.good hok (h.good rfl hg)⟩
  failed h _ := ⟨h.continues, h.culprits, fun hok => by cases hok⟩
  discard h :=
    ⟨h.continues.rollback.continues, culprits_renamed h.continues.rollback, fun _ hg => h.continues.rollback.good hg⟩

/-- started on a record without a flaw, a body that succeeds adds none -/
def KeepsGood (body : Body σ α) : Prop :=
  ∀ ⦃r⦄, Good r.recorder → (body r).1.isOk = true → Good (body r).2.recorder

/-- started on a record without a flaw, a body that fails leaves its failure at the place of the culprit -/
def Blaming (body : Body σ α) (who : TestRun σ → Option Culprit) : Prop :=
  ∀ ⦃r f⦄, Good r.recorder → (body r).1 = .failed f → Blamed f.recorded (who r) (body r).2.recorder

variable {body : Body σ α} {inside : TestRun σ → List Discard} {who more : TestRun σ → Option Culprit}

theorem keepsGood_of_clean (h : Obeys Clean body inside) : KeepsGood body := fun r hg hok => (h r).good hok hg

theorem blaming_andThen {first rest : Body σ Unit} (hkeeps : KeepsGood first) (h : Blaming first who)
    (k : Blaming rest more) : Blaming (andThen first rest) (andThenCulprit first who more) := by
  intro r f hg hf
  have hfirst := h (f := f) hg
  have hgood := hkeeps hg
  unfold andThen at hf ⊢
  unfold andThenCulprit
  rcases hr : first r with ⟨a | e | c, after⟩
  · rw [hr] at hf hgood
    exact k (hgood rfl) hf
  · rw [hr] at hf hfirst
    exact hfirst hf
  · rw [hr] at hf
    cases hf

/-! ## The last attempt -/

namespace Replay

variable {e : Replay} {deadline : Nat} {frame : Option String} {r : TestRun σ}

/-- every attempt starts on a record without a flaw -/
theorem good_lastFrom (hclean : Obeys Clean body inside) (fuel : Nat) (hg : Good r.recorder) :
    Good (lastFrom e deadline frame body fuel r).recorder := by
  have hattempts : Obeys Clean (attempt frame body) _ := obeys_attempt clean_lawful.toRespected hclean
  induction fuel generalizing r with
  | zero => exact hg
  | succ fuel ih =>
    rw [lastFrom]
    cases hnext : next? e deadline frame body r with
    | none => exact hg
    | some next =>
      obtain ⟨-, now, hnow⟩ := recorder_next hnext
      -- what the attempt left is on top of the record before it, and taken off
      have hback := (hattempts r).continues.rollback
      refine ih ?_
      rw [hnow]
      exact (hback.trans (renamed_moveTo _ now)).good hg

end Replay

namespace TestRun

variable {op : Operation} {frame : Option String} {r : TestRun σ} {f : Failure}

theorem returned_of_failed {outcome : Outcome α} (h : outcome = .failed f) : outcome.returned = true := by
  rw [h]
  rfl

theorem good_lastStart (hclean : Obeys Clean body inside) (op : Operation) (frame : Option String)
    (hg : Good r.recorder) : Good (lastStart op frame body r).recorder := by
  unfold lastStart
  split
  · exact Replay.good_lastFrom hclean _ (r := { r with clock := r.clock.afterReading }) hg
  · exact hg

/-- the last attempt of a call decides who is to blame -/
theorem blamed_execute (hclean : Obeys Clean body inside) (h : Blaming body who) (hg : Good r.recorder)
    (hf : (execute op frame body r).1.1 = .failed f) :
    Blamed f.recorded (lastCulprit op frame body who r) (execute op frame body r).2.recorder := by
  obtain ⟨houtcome, hrecorder⟩ := execute_eq_last (returned_of_failed hf)
  have hlast := good_lastStart hclean op frame hg
  rw [hrecorder]
  rw [houtcome] at hf
  unfold attemptOf at hf ⊢
  unfold lastCulprit
  by_cases hreplay : op.replay = true
  · rw [if_pos hreplay] at hf ⊢
    rw [if_pos hreplay]
    have hsame := Replay.recorder_restoreFrame frame (lastStart op frame body r)
    rcases hp : Replay.restoreFrame frame (lastStart op frame body r) with ⟨e | _, start⟩ <;> rw [hp] at hsame
    · rw [attempt_refused hp, hsame]
      exact .unseen hlast
    · rw [attempt_restored hp] at hf ⊢
      exact h (by rw [hsame]; exact hlast) hf
  · have hstart : lastStart op frame body r = r := if_neg hreplay
    rw [if_neg hreplay, hstart] at hf ⊢
    rw [if_neg hreplay]
    exact h hg hf

/-! ## Calls of operations -/

/-- the end of a call inside its step: the step is failed, and shows the failure if nothing in it does -/
theorem blamed_closing {p : (Outcome α × Option String) × TestRun σ} {culprit : Option Culprit}
    (h : Blamed f.recorded culprit p.2.recorder) (hp : p.1.1 = .failed f) :
    Blamed f.recorded (culprit.or p.2.recorder.culprits.head?) (closing p).2.recorder := by
  have hwarn : Blamed f.recorded culprit (warn p.1.2 p.2).recorder ∧
      (warn p.1.2 p.2).recorder.culprits = p.2.recorder.culprits := by
    cases p.1.2 with
    | none => exact ⟨h, rfl⟩
    | some text => exact ⟨h.recordMessage text .warning, culprits_recordMessage _ text .warning⟩
  have hfailure : p.1.1.failure? = some f := by rw [hp]; rfl
  have hclosed := hwarn.1.closeStep
  rw [hwarn.2] at hclosed
  unfold closing
  rw [hfailure]
  exact hclosed

theorem blaming_interceptStep (hclean : Obeys Clean body inside) (h : Blaming body who) (op : Operation)
    (i : Invocation) : Blaming (interceptStep op i body) (stepCulprit op i body who) := by
  intro r f hg hf
  unfold stepCulprit
  by_cases hm : r.settings.manualTestSteps = true
  · rw [interceptStep_manual op i body hm] at hf ⊢
    rw [if_pos hm]
    exact blamed_execute hclean h hg hf
  · rw [interceptStep_eq op i body hm] at hf ⊢
    rw [if_neg hm]
    let entered : TestRun σ := r.record fun rec => rec.openStep (r.stepOf op i)
    have hbehind := (obeys_execute clean_lawful.toRespected op i.frame hclean entered).culprits
    have hclosing := blamed_closing (blamed_execute hclean h (r := entered) (hg.openStep (fresh_stepOf r op i)) hf) hf
    rw [hbehind, show entered.recorder.culprits = _ from culprits_openStep _ _] at hclosing
    exact hclosing

theorem flawless_warning {ns : List Node} (h : Warning ns) : Node.allFlawless ns = true := by
  rcases h with rfl | ⟨m, rfl, -⟩
  · rfl
  · rfl

/-- a driver command that fails is the place itself -/
theorem blaming_command {i : Invocation} {name : String} (hop : r.registry.get? i.operation = some op)
    (hk : op.kind = .action) (hg : Good r.recorder) (hf : (r.perform i name).1 = .failed f) :
    Blamed f.recorded (some { id := op.id, origin := i.origin }) (r.perform i name).2.recorder := by
  unfold perform at hf ⊢
  rw [intercept_action hop hk, interceptAction_eq] at hf ⊢
  have hfailed : (execute op i.frame (command name i.element i.driverArgs) r).1.1 = .failed f := hf
  obtain ⟨now, hmoves⟩ := moves_execute (moves_command name i.element i.driverArgs) (returned_of_failed hfailed)
  rw [acting_gained hmoves (r.actionName op i) op i, hfailed]
  exact blamed_gained hg (.action rfl rfl rfl rfl rfl) (flawless_warning (warning_warningNodes _ _ now)) now

/-! ## Composites -/

/-- the actions of a unit that failed, none of which shows the failure -/
theorem primitives_failed (c : Composite) (s : Recorder) {outcome : Outcome α} (h : outcome = .failed f)
    (now : Timestamp) :
    List.Forall₂ (FailedPart c.culprit.origin) c.culprit.parts
      (c.primitives.map fun x => actionNode s (primitiveAction c outcome now x)) := by
  refine List.forall₂_map_left_iff.2 (List.forall₂_map_right_iff.2 (List.forall₂_same.2 fun x _ => ?_))
  have hfailed : (primitiveAction c outcome now x).failed = true := by simp [primitiveAction, h, Outcome.failure?]
  exact ⟨_, rfl, rfl, rfl, rfl, hfailed, rfl⟩

theorem blaming_performComposite (c : Composite) :
    Blaming (performComposite c : Body σ Unit) fun _ => some c.culprit := by
  intro r f hg hf
  have hfailed : (unitOf c r).1.1 = .failed f := hf
  have hfailure : (unitOf c r).1.1.failure? = some f := by
    rw [hfailed]
    rfl
  obtain ⟨now, hgained⟩ := performComposite_gained c (returned_of_failed hf)
  have hparts := primitives_failed c r.recorder hfailed now
  have hwarning := flawless_warning (warning_warningNodes r.recorder (unitOf c r).1.2 now)
  rw [hgained, compositeNode, hfailure]
  exact blamed_gained hg (blames_stepNode r.recorder _ f now rfl rfl hparts hwarning) rfl now

theorem blaming_performComposites (cs : List Composite) :
    Blaming (performComposites cs : Body σ Unit) (compositesCulprit cs) := by
  induction cs with
  | nil => exact fun r f _ hf => by cases hf
  | cons c cs ih =>
    rw [performComposites_cons]
    have hkeeps : KeepsGood (performComposite c : Body σ Unit) :=
      keepsGood_of_clean (obeys_performComposite clean_lawful.toRespected c)
    exact blaming_andThen hkeeps (blaming_performComposite c) ih

end TestRun

/-! ## Calls -/

namespace Call

mutual

theorem run_blaming (c : Call) (hfree : c.stepFree = true) : Blaming (c.run : Body σ Unit) c.culprit := by
  cases c with
  | operation target command children =>
    have hclean : Obeys Clean (fun r : TestRun σ => runAll children r) _ :=
      runAll_obeys clean_lawful children (Or.inl hfree)
    have hchildren : Blaming (fun r : TestRun σ => runAll children r) fun r => culpritAll children r :=
      runAll_blaming children hfree
    intro r f hg hf
    rw [run, isAction] at hf ⊢
    rw [culprit]
    cases hop : r.registry.get? target.operation with
    | none =>
      simp only [Bool.false_eq_true, if_false]
      rw [TestRun.intercept_undeclared hop]
      exact .unseen hg
    | some op =>
      simp only [hop, beq_iff_eq] at hf ⊢
      by_cases hk : op.kind = .action
      · rw [if_pos hk] at hf ⊢
        rw [if_pos hk]
        have hfailed : (r.perform target (command.getD target.operation)).1 = .failed f := by
          generalize (r.perform target (command.getD target.operation)) = p at hf
          obtain ⟨a | e | x, after⟩ := p
          · cases hf
          · exact congrArg Outcome.failed (Outcome.failed.inj hf)
          · cases hf
        exact TestRun.blaming_command hop hk hg hfailed
      · rw [if_neg hk] at hf ⊢
        rw [if_neg hk]
        rw [TestRun.intercept_step hop hk] at hf ⊢
        exact TestRun.blaming_interceptStep hclean hchildren op target hg hf
  | composites batch => exact TestRun.blaming_performComposites batch
  | step name => cases hfree
  | message text level => exact fun r f _ hf => by cases hf
  | secret value => exact fun r f _ hf => by cases hf
  | fail text =>
    intro r f hg hf
    obtain rfl := Outcome.failed.inj hf
    exact blamed_failCurrent hg _

theorem runAll_blaming (cs : List Call) (hfree : stepFreeAll cs = true) :
    Blaming (runAll cs : Body σ Unit) (culpritAll cs) := by
  cases cs with
  | nil => exact fun r f _ hf => by cases hf
  | cons c cs =>
    rw [stepFreeAll, Bool.and_eq_true] at hfree
    rw [runAll_cons, culpritAll_cons]
    have hkeeps : KeepsGood (c.run : Body σ Unit) := keepsGood_of_clean (run_obeys clean_lawful c (Or.inl hfree.1))
    exact blaming_andThen hkeeps (run_blaming c hfree.1) (runAll_blaming cs hfree.2)

end

/-! ## Whole tests -/

/-- a step of the test's own closes the one before it, which has no flaw -/
theorem keepsGood_of_onTop {c : Call} (h : c.onTop = true) : KeepsGood (c.run : Body σ Unit) := by
  cases c with
  | step name => exact fun r hg _ => hg.addStep name
  | _ => exact keepsGood_of_clean (run_obeys clean_lawful _ (Or.inl h))

theorem blaming_of_onTop {c : Call} (h : c.onTop = true) : Blaming (c.run : Body σ Unit) c.culprit := by
  cases c with
  | step name => exact fun r f _ hf => by cases hf
  | _ => exact run_blaming _ h

theorem blaming_of_allOnTop {calls : List Call} (h : calls.all onTop = true) :
    Blaming (runAll calls : Body σ Unit) (culpritAll calls) := by
  induction calls with
  | nil => exact fun r f _ hf => by cases hf
  | cons c calls ih =>
    rw [List.all_cons, Bool.and_eq_true] at h
    rw [runAll_cons, culpritAll_cons]
    exact blaming_andThen (keepsGood_of_onTop h.1) (blaming_of_onTop h.1) (ih h.2)

/-- **A failing test blames one place.** All steps that a new test opens by itself stand on top, and its calls fail.
Then the finished forest shows the exception of this failure at one node, or at none, and no other exception. It is the
node of the culprit of the run: the command, the composite or the step that the failure is put on. Failed are this node,
the steps around it, the closing step of the test, and, when the culprit is a composite, the actions of all its
primitives, with which its step begins; nothing else is. So it is whatever the driver does, whatever the clock shows, and
whether or not steps are recorded automatically. -/
theorem failing_test_blames_one_place (calls : List Call) (r : TestRun σ) (maskEnabled : Bool) (now : Timestamp)
    (e : Failure) (hfresh : r.recorder = Recorder.fresh maskEnabled now) (htop : calls.all onTop = true)
    (hfailed : (runAll calls r).1 = .failed e) :
    ∃ blame : Option Blame, blame.map Blame.culprit = culpritAll calls r ∧
      Blame.FitsTest e.recorded ((runAll calls r).2.finish (some e)).1 blame := by
  have hgood : Good r.recorder := by
    rw [hfresh]
    exact fresh_good maskEnabled now
  obtain ⟨screenshot, hforest⟩ := finish_eq (runAll calls r).2 (some e)
  rw [hforest]
  exact (blaming_of_allOnTop htop hgood hfailed).finish screenshot

/-- an order with a form that is filled in as one unit -/
def order : List Call :=
  [.message "hello" .info, .step "order",
    .operation { operation := "pay" } none
      [.composites [{ id := "form", primitives := [{ command := "type" }, { command := "press" }] }],
        .message "done" .info]]

/-- typing works the second time, and pressing never does -/
def ordering : TestRun Unit :=
  { TestRun.start "order" {} (.ofList [.ofKind "pay" .step]) (.steady 0) {} noon () with
    driver := some ((Driver.failNext {} "type" 1 ⟨.stale, "type"⟩).alwaysFail "press" ⟨.application, "broken"⟩) }

/-- the form is tried twice; its step is to blame, and both of its actions are failed -/
theorem form_of_order_blamed :
    let e : Failure := ⟨.application, "broken"⟩
    let forest := ((runAll order ordering).2.finish (some e)).1
    order.all onTop = true ∧ (runAll order ordering).1 = .failed e ∧
      ((runAll order ordering).2.driver.map fun d => d.calls "type") = some 2 ∧
      culpritAll order ordering = some { id := "form", parts := [("type", none), ("press", none)] } ∧
      forest.map Node.failed = [false, true, true] ∧
      (Node.at? forest [1, 0, 0]).map (fun n => (n.exception, n.children.map Node.failed)) =
        some (some e.recorded, [true, true]) ∧
      ∃ blame : Option Blame, blame.map Blame.culprit = culpritAll order ordering ∧
        Blame.FitsTest e.recorded forest blame :=
  ⟨by decide, by decide +kernel, by decide +kernel, by decide +kernel, by decide +kernel, by decide +kernel,
    failing_test_blames_one_place order ordering true noon _ rfl (by decide) (by decide +kernel)⟩

end Call

end TestTrail
