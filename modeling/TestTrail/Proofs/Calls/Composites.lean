/-
Composites are done whole or not at all.

The primitives of a composite run inside the attempts of a replay; their actions are recorded behind it, all of them
from how it ended. So there are two accounts of a composite. The driver's is `Driver.Attempts`: the primitives that each
attempt executed, of which the last attempt decides. The record's is `ShowsComposite`: one step with one action for each
primitive, however many attempts were made.

`Performed` has both accounts of one composite, and `composites_all_or_nothing` is about a batch. It is done whole or up
to a failure unless it comes to a replay without an end (`Hangs`), and on a clock that goes on that is a replay whose
deadline does not fit. Settings that a suite may start with do not rule it out (`nothing_paid_under_endless_timeout`).
-/
import TestTrail.Proofs.Calls.Crashes
import TestTrail.Proofs.Calls.Nesting
import TestTrail.Proofs.Calls.Scripts
import TestTrail.Proofs.Recorder.Blame

namespace TestTrail

open Recorder

variable {σ α : Type}

/-! ## The driver's account -/

namespace Driver

/-- An attempt at a unit, and the primitives executed in it: all of them once, in order, or those up to the first one
that fails. -/
inductive Attempt (d : Driver) (ps : List Primitive) : List Primitive → Outcome Unit → Driver → Prop where
  | whole {last : Driver} (hps : Executes d ps last) : Attempt d ps ps (.ok ()) last
  | upTo {done rest : List Primitive} {p : Primitive} {mid last : Driver} {f : Failure} (hps : ps = done ++ p :: rest)
      (hdone : Executes d done mid) (hp : mid.execute p.command p.element p.args = (.error f, last)) :
      Attempt d ps (done ++ [p]) (.failed f) last

/-- a replayed attempt starts on the top document, any other where the driver is -/
def Begins (replayed : Bool) (d start : Driver) : Prop :=
  if replayed then d.toDefaultContent = (.ok (), start) else start = d

/-- All attempts at a unit, with the primitives executed in those that were discarded and in the last one. Only a replay
discards attempts, and only such as failed for the moment. -/
inductive Attempts (replayed : Bool) (ps : List Primitive) :
    Driver → List (List Primitive) → List Primitive → Outcome Unit → Driver → Prop where
  | last {d start last : Driver} {final : List Primitive} {outcome : Outcome Unit} (hstart : Begins replayed d start)
      (hlast : Attempt start ps final outcome last) : Attempts replayed ps d [] final outcome last
  | again {d start next last : Driver} {executed final : List Primitive} {discarded : List (List Primitive)}
      {f : Failure} {outcome : Outcome Unit} (hreplayed : replayed = true) (hstart : Begins replayed d start)
      (hfirst : Attempt start ps executed (.failed f) next) (hf : f.transient = true)
      (hrest : Attempts replayed ps next discarded final outcome last) :
      Attempts replayed ps d (executed :: discarded) final outcome last

/-- the entries of an attempt in the journal -/
def attemptEntries (replayed : Bool) (executed : List Primitive) : List JournalEntry :=
  (if replayed then [.defaultContent] else []) ++ executed.map Primitive.entry

/-- the driver has written some entries, and will get to the top document as before -/
structure Wrote (d : Driver) (entries : List JournalEntry) (last : Driver) : Prop where
  journal : last.journal = d.journal ++ entries
  content : last.contentScript = d.contentScript

variable {d start next last : Driver} {ps executed final : List Primitive} {discarded : List (List Primitive)}
  {outcome : Outcome Unit} {replayed : Bool}

theorem Wrote.refl (d : Driver) : Wrote d [] d := ⟨(List.append_nil _).symm, rfl⟩

theorem Wrote.trans {entries more : List JournalEntry} (h : Wrote d entries next) (k : Wrote next more last) :
    Wrote d (entries ++ more) last :=
  ⟨by rw [k.journal, h.journal, List.append_assoc], k.content.trans h.content⟩

theorem wrote_execute {p : Primitive} {result : Except Failure String}
    (hp : d.execute p.command p.element p.args = (result, next)) : Wrote d [p.entry] next := by
  obtain rfl : (d.execute p.command p.element p.args).2 = next := congrArg Prod.snd hp
  exact ⟨rfl, rfl⟩

theorem Executes.wrote (h : Executes d ps last) : Wrote d (ps.map Primitive.entry) last := by
  induction h with
  | nil d => exact Wrote.refl d
  | cons hp _ ih => exact (wrote_execute hp).trans ih

theorem Attempt.wrote (h : Attempt d ps executed outcome last) : Wrote d (executed.map Primitive.entry) last := by
  cases h with
  | whole hps => exact hps.wrote
  | upTo _ hdone hp =>
    rw [List.map_append]
    exact hdone.wrote.trans (wrote_execute hp)

/-- when nothing is scripted for it, the way to the top document is open -/
theorem toDefaultContent_unscripted (h : d.contentScript = []) :
    ∃ top, d.toDefaultContent = (.ok (), top) ∧ Wrote d [.defaultContent] top := by
  refine ⟨{ d.note .defaultContent with contentScript := d.contentScript.tail }, ?_, rfl, ?_⟩
  · simp only [toDefaultContent, nextOutcome, h]
  · rw [h]
    rfl

theorem Begins.wrote (h : Begins replayed d start) (hd : d.contentScript = []) :
    Wrote d (if replayed then [.defaultContent] else []) start := by
  cases replayed with
  | false =>
    obtain rfl : start = d := h
    exact Wrote.refl start
  | true =>
    obtain ⟨top, htop, hwrote⟩ := toDefaultContent_unscripted hd
    obtain rfl : top = start := congrArg Prod.snd (htop.symm.trans h)
    exact hwrote

/-- the journal has gained the attempts, one after the other -/
theorem Attempts.wrote (h : Attempts replayed ps d discarded final outcome last) (hd : d.contentScript = []) :
    Wrote d ((discarded ++ [final]).flatMap (attemptEntries replayed)) last := by
  induction h with
  | last hstart hlast =>
    rw [List.nil_append, List.flatMap_singleton]
    exact (hstart.wrote hd).trans hlast.wrote
  | again hreplayed hstart hfirst hf hrest ih =>
    have hwrote := (hstart.wrote hd).trans hfirst.wrote
    rw [List.cons_append, List.flatMap_cons]
    exact hwrote.trans (ih (hwrote.content.trans hd))

theorem Attempt.cons {p : Primitive} {answer : String} (h : Attempt next ps executed outcome last)
    (hp : d.execute p.command p.element p.args = (.ok answer, next)) :
    Attempt d (p :: ps) (p :: executed) outcome last := by
  cases h with
  | whole hps => exact .whole (.cons hp hps)
  | upTo hps hdone hf =>
    rw [hps]
    exact .upTo rfl (.cons hp hdone) hf

/-- without primitives nothing fails -/
theorem Attempt.ok_of_nil (h : Attempt d ps executed outcome last) (hps : ps = []) : outcome = .ok () := by
  cases h with
  | whole _ => rfl
  | upTo hsplit _ _ =>
    rw [hps] at hsplit
    exact absurd hsplit.symm (List.append_ne_nil_of_right_ne_nil _ (List.cons_ne_nil _ _))

theorem Attempts.ok_of_nil (h : Attempts replayed ps d discarded final outcome last) (hps : ps = []) :
    outcome = .ok () := by
  induction h with
  | last _ hlast => exact hlast.ok_of_nil hps
  | again _ _ _ _ _ ih => exact ih

end Driver

/-! ## Attempts of a unit -/

section Units

variable {d : Driver} {r : TestRun σ}

theorem attempt_commands (ps : List Primitive) (hr : r.driver = some d) :
    ∃ executed last, (TestRun.commands ps r).2.driver = some last ∧
      Driver.Attempt d ps executed (TestRun.commands ps r).1 last := by
  induction ps generalizing r d with
  | nil => exact ⟨[], d, hr, .whole (.nil d)⟩
  | cons p ps ih =>
    rw [TestRun.commands, TestRun.command]
    simp only [hr]
    rcases hp : d.execute p.command p.element p.args with ⟨f | answer, next⟩
    · have hps : p :: ps = [] ++ p :: ps := rfl
      exact ⟨[p], next, rfl, .upTo hps (.nil d) hp⟩
    · obtain ⟨executed, last, hlast, hattempt⟩ :=
        ih (r := { r with driver := some next }.pause next.latency) (d := next) rfl
      exact ⟨p :: executed, last, hlast, hattempt.cons hp⟩

theorem attempt_unit (ps : List Primitive) (hr : r.driver = some d) :
    ∃ executed last, (TestRun.unit ps r).2.driver = some last ∧
      Driver.Attempt d ps executed (TestRun.unit ps r).1 last := by
  unfold TestRun.unit
  simp only [hr]
  exact attempt_commands ps hr

/-- an attempt of a replay -/
theorem attempt_unit_replayed (ps : List Primitive) (hr : r.driver = some d) (hd : d.contentScript = []) :
    ∃ start executed last, Driver.Begins true d start ∧
      (Replay.attempt none (TestRun.unit ps) r).2.driver = some last ∧
      Driver.Attempt start ps executed (Replay.attempt none (TestRun.unit ps) r).1 last := by
  obtain ⟨top, htop, -⟩ := Driver.toDefaultContent_unscripted hd
  rw [attempt_restored (restoreFrame_top hr htop (Or.inl rfl))]
  obtain ⟨executed, last, hlast, hattempt⟩ := attempt_unit ps (r := { r with driver := some top }) rfl
  exact ⟨top, executed, last, htop, hlast, hattempt⟩

/-- the attempts of a replay that comes back -/
theorem attempts_attemptsFrom (e : Replay) (deadline : Nat) (ps : List Primitive) (fuel done : Nat)
    (hr : r.driver = some d) (hd : d.contentScript = [])
    (hreturned : (e.attemptsFrom deadline none (TestRun.unit ps) fuel done r).1.result.returned = true) :
    ∃ discarded final last, (e.attemptsFrom deadline none (TestRun.unit ps) fuel done r).2.driver = some last ∧
      Driver.Attempts true ps d discarded final (e.attemptsFrom deadline none (TestRun.unit ps) fuel done r).1.result
        last := by
  induction fuel generalizing done r d with
  | zero => cases hreturned
  | succ fuel ih =>
    obtain ⟨start, executed, after, hstart, hafter, hattempt⟩ := attempt_unit_replayed ps hr hd
    cases hnext : Replay.next? e deadline none (TestRun.unit ps) r with
    | none =>
      obtain ⟨hresult, clock, hrun⟩ := Replay.attemptsFrom_last hnext fuel done
      rw [hresult, hrun]
      exact ⟨[], executed, after, hafter, .last hstart hattempt⟩
    | some next =>
      obtain ⟨f, failed, hfailed, hf, -, rfl⟩ := Replay.next?_eq_some hnext
      have hcontent := ((hstart.wrote hd).trans hattempt.wrote).content.trans hd
      rw [hfailed] at hafter hattempt
      rw [Replay.attemptsFrom_of_next hnext] at hreturned ⊢
      obtain ⟨discarded, final, last, hlast, hrest⟩ :=
        ih (r := e.goneBack deadline r failed) (done + 1) hafter hcontent hreturned
      exact ⟨executed :: discarded, final, last, hlast, .again rfl hstart hattempt hf hrest⟩

end Units

/-! ## Replays without an end -/

/-- the deadline does not fit the clock, or no attempt ends the replay -/
def Trial.NeverEnds (t : Trial σ α) : Prop :=
  Replay.clockLimit ≤ t.deadline ∨ ∀ n < Replay.attemptLimit, ¬ t.Ends n

/-- code that comes back whenever it is run also comes back from a replay, if this has an end -/
theorem Trial.returned_or_neverEnds (t : Trial σ α) (hbody : ∀ r, (t.body r).1.returned = true) :
    t.run.1.result.returned = true ∨ t.NeverEnds := by
  refine or_iff_not_imp_right.2 fun hend => ?_
  unfold NeverEnds at hend
  push Not at hend
  obtain ⟨hfits, n, hn, hends⟩ := hend
  have hexists : ∃ n, t.Ends n := ⟨n, hends⟩
  classical
  have hlimit : Nat.find hexists < Replay.attemptLimit := (Nat.find_min' hexists hends).trans_lt hn
  rw [run_of_ends hfits hlimit (Nat.find_spec hexists) fun i hi => Nat.find_min hexists hi]
  unfold outcome
  rcases Replay.attempt_eq t.frame t.body (t.before (Nat.find hexists)) with ⟨f, hf⟩ | hattempt
  · rw [hf]
    rfl
  · rw [hattempt]
    exact hbody _

/-- a replay without an end crashes, at once or when it is cut off -/
theorem Trial.crashed_of_neverEnds {t : Trial σ α} (h : t.NeverEnds) : ∃ crash, t.run.1.result = .crashed crash := by
  by_cases hlimit : Replay.clockLimit ≤ t.deadline
  · have hrun : t.run = _ := Replay.run_of_overflow hlimit
    exact ⟨.deadlineOverflow, by rw [hrun]⟩
  · have hgoes := h.resolve_left hlimit
    have hrun : t.run = Replay.attemptsFrom t.replay t.deadline t.frame t.body (0 + Replay.attemptLimit) 0 (t.before 0) :=
      (Replay.run_of_fits hlimit).trans (by rw [Nat.zero_add]; rfl)
    rw [attemptsFrom_before Replay.attemptLimit 0 hgoes] at hrun
    exact ⟨.endless, by rw [hrun]; rfl⟩

namespace TestRun

/-- the replay of a composite -/
def compositeTrial (c : Composite) (r : TestRun σ) : Trial σ Unit :=
  ⟨Replay.ofSettings r.settings, none, unit c.primitives, r.record fun rec => rec.openStep (compositeStep c r)⟩

/-- a composite comes back, unless it is replayed without an end -/
theorem performComposite_returned (c : Composite) (r : TestRun σ) :
    (performComposite c r).1.returned = true ∨
      (compositeOperation c r).replay = true ∧ (compositeTrial c r).NeverEnds := by
  change (unitOf c r).1.1.returned = true ∨ _
  unfold unitOf
  by_cases hreplay : (compositeOperation c r).replay = true
  · rw [execute_replay hreplay, answerOf_result]
    exact ((compositeTrial c r).returned_or_neverEnds (returned_unit c.primitives)).imp_right (And.intro hreplay)
  · rw [execute_once hreplay]
    exact Or.inl (returned_unit c.primitives _)

theorem performComposite_crashed {c : Composite} {r : TestRun σ} (hreplay : (compositeOperation c r).replay = true)
    (hend : (compositeTrial c r).NeverEnds) : ∃ crash, (performComposite c r).1 = .crashed crash := by
  change ∃ crash, (unitOf c r).1.1 = .crashed crash
  unfold unitOf
  rw [execute_replay hreplay, answerOf_result]
  exact Trial.crashed_of_neverEnds hend

/-- only a replay that gave up on a transient failure leaves a warning -/
theorem failed_of_warned {op : Operation} {frame : Option String} {body : Body σ α} {r : TestRun σ}
    (h : (execute op frame body r).1.2 ≠ none) :
    ∃ f, (execute op frame body r).1.1 = .failed f ∧ f.transient = true := by
  by_cases hreplay : op.replay = true
  · rw [execute_replay hreplay, answerOf_warning] at h
    rw [execute_replay hreplay, answerOf_result]
    have hexhausted := not_imp_comm.1 (fun hgoes => if_neg hgoes) h
    exact (Trial.run_exhausted (t := ⟨Replay.ofSettings r.settings, frame, body, r⟩) hexhausted).1
  · rw [execute_once hreplay] at h
    exact absurd rfl h

/-- the attempts of a composite that comes back -/
theorem attempts_unitOf (c : Composite) {r : TestRun σ} {d : Driver} (hr : r.driver = some d)
    (hd : d.contentScript = []) (hreturned : (unitOf c r).1.1.returned = true) :
    ∃ discarded final last, (unitOf c r).2.driver = some last ∧
      Driver.Attempts (compositeOperation c r).replay c.primitives d discarded final (unitOf c r).1.1 last := by
  unfold unitOf at hreturned ⊢
  by_cases hreplay : (compositeOperation c r).replay = true
  · rw [execute_replay hreplay, answerOf_result] at hreturned
    rw [execute_replay hreplay, answerOf_result, answerOf_run, hreplay]
    generalize hs : (r.record fun rec => rec.openStep (compositeStep c r)) = s at hreturned ⊢
    have hdriver : s.driver = some d := by rw [← hs]; exact hr
    by_cases hlimit : Replay.clockLimit ≤ s.clock.now + (Replay.ofSettings s.settings).timeout
    · rw [Replay.run_of_overflow hlimit] at hreturned
      cases hreturned
    · rw [Replay.run_of_fits hlimit] at hreturned ⊢
      generalize Replay.attemptLimit = fuel at hreturned ⊢
      exact attempts_attemptsFrom (r := { s with clock := s.clock.afterReading }) _ _ c.primitives fuel 0 hdriver hd
        hreturned
  · rw [execute_once hreplay, Bool.eq_false_of_not_eq_true hreplay]
    obtain ⟨executed, last, hlast, hattempt⟩ := attempt_unit c.primitives
      (r := r.record fun rec => rec.openStep (compositeStep c r)) hr
    exact ⟨[], executed, last, hlast, .last rfl hattempt⟩

end TestRun

/-! ## The record's account -/

/-- the action of a primitive; it is failed when the composite is, and shows no exception -/
structure ShowsPrimitive (s : Recorder) (c : Composite) (failed : Bool) (p : Primitive) (a : Action) : Prop where
  name : a.name = s.masked p.name
  actionId : a.actionId = p.command
  origin : a.origin = c.origin
  element : a.element = p.element
  failed : a.failed = failed
  exception : a.exception = none

/-- The node of a composite that was performed on a record, and failed or not. It is a step around one action for each
primitive, in order, and a warning if its replay gave up. Without primitives it does not fail, and is an action when it
lies inside another step. -/
inductive ShowsComposite (s : Recorder) (c : Composite) (failure : Option Failure) : Node → Prop where
  | step {head : StepHead} {actions : List Action} {warning : List Node} (hname : head.name = s.masked c.name)
      (hid : head.actionId = c.id) (hfailed : head.failed = failure.isSome)
      (hexception : head.exception = failure.map Failure.recorded)
      (hactions : List.Forall₂ (ShowsPrimitive s c failure.isSome) c.primitives actions)
      (hwarning : warning = [] ∨ Warning warning ∧ ∃ f, failure = some f ∧ f.transient = true)
      (hplace : s.openSteps = [] ∨ c.primitives ≠ []) :
      ShowsComposite s c failure (.step head (actions.map .action ++ warning))
  | leaf {a : Action} (hname : a.name = s.masked c.name) (hid : a.actionId = c.id) (hfailed : a.failed = false)
      (hexception : a.exception = none) (hnone : failure = none) (hps : c.primitives = [])
      (hplace : s.openSteps ≠ []) : ShowsComposite s c failure (.action a)

/-- a step that holds no exception, and failures only if it failed itself, shows its own failure -/
theorem bracketHead_own {x : FreshStep} {failure : Option Failure} {ns : List Node} (now : Timestamp)
    (position : Option Nat) (hns : ∀ n ∈ ns, (n.failed = true → failure.isSome = true) ∧ n.hasException = false) :
    (bracketHead x (failure.isSome || ns.any Node.failed) ns failure now position).failed = failure.isSome ∧
      (bracketHead x (failure.isSome || ns.any Node.failed) ns failure now position).exception =
        failure.map Failure.recorded := by
  have hfailed : ns.any Node.failed = true → failure.isSome = true := by
    intro hany
    obtain ⟨n, hn, hf⟩ := List.any_eq_true.1 hany
    exact (hns n hn).1 hf
  have hnone : Node.anyException ns = false := by
    rw [Node.anyException_eq_any, List.any_eq_false]
    intro n hn
    rw [(hns n hn).2]
    exact Bool.false_ne_true
  refine ⟨?_, ?_⟩
  · change (failure.isSome || ns.any Node.failed) = failure.isSome
    cases hany : ns.any Node.failed with
    | false => exact Bool.or_false _
    | true => rw [Bool.or_true, hfailed hany]
  · change (if Node.anyException ns then none else failure.map Failure.recorded) = _
    rw [hnone]
    rfl

namespace TestRun

/-- the children of a composite's step -/
theorem quiet_children (c : Composite) (s : Recorder) (answer : Outcome Unit × Option String) (now : Timestamp) :
    ∀ n ∈ (c.primitives.map fun p => actionNode s (primitiveAction c answer.1 now p)) ++
      warningNodes s answer.2 now, (n.failed = true → answer.1.failure?.isSome = true) ∧ n.hasException = false := by
  intro n hn
  rcases List.mem_append.1 hn with hn | hn
  · obtain ⟨p, -, rfl⟩ := List.mem_map.1 hn
    exact ⟨id, rfl⟩
  · unfold warningNodes at hn
    split at hn
    · rw [List.mem_singleton.1 hn]
      exact ⟨fun hf => absurd hf Bool.false_ne_true, rfl⟩
    · exact absurd hn List.not_mem_nil

theorem shows_compositeNode (c : Composite) (r : TestRun σ) (answer : Outcome Unit × Option String) (now : Timestamp)
    (hwarned : answer.2 ≠ none → ∃ f, answer.1 = .failed f ∧ f.transient = true)
    (hempty : c.primitives = [] → answer.1 = .ok ()) :
    ShowsComposite r.recorder c answer.1.failure? (compositeNode c r answer now) := by
  let actions := c.primitives.map fun p =>
    { primitiveAction c answer.1 now p with name := r.recorder.masked p.name }
  have hchildren : (c.primitives.map fun p => actionNode r.recorder (primitiveAction c answer.1 now p)) =
      actions.map .action := by
    rw [List.map_map]
    rfl
  have hactions : List.Forall₂ (ShowsPrimitive r.recorder c answer.1.failure?.isSome) c.primitives actions :=
    List.forall₂_map_right_iff.2 (List.forall₂_same.2 fun p _ => ⟨rfl, rfl, rfl, rfl, rfl, rfl⟩)
  have hwarning : warningNodes r.recorder answer.2 now = [] ∨ Warning (warningNodes r.recorder answer.2 now) ∧
      ∃ f, answer.1.failure? = some f ∧ f.transient = true := by
    cases hw : answer.2 with
    | none => exact Or.inl rfl
    | some text =>
      obtain ⟨f, hf, htransient⟩ := hwarned (by rw [hw]; exact Option.some_ne_none text)
      exact Or.inr ⟨warning_warningNodes _ _ _, f, by rw [hf]; rfl, htransient⟩
  have hown := fun position =>
    bracketHead_own (x := maskedStep r.recorder ⟨compositeStep c r, fresh_compositeStep c r⟩) now position
      (quiet_children c r.recorder answer now)
  unfold compositeNode stepNode
  rw [hchildren] at hown ⊢
  cases hopen : r.recorder.openSteps with
  | nil => exact .step rfl rfl (hown _).1 (hown _).2 hactions hwarning (Or.inl hopen)
  | cons outer more =>
    have hinside : r.recorder.openSteps ≠ [] := by
      rw [hopen]
      exact List.cons_ne_nil outer more
    by_cases hps : c.primitives = []
    · have hok := hempty hps
      have hsilent : answer.2 = none := by
        by_contra hw
        obtain ⟨f, hf, -⟩ := hwarned hw
        rw [hok] at hf
        cases hf
      have hnil : actions.map Node.action ++ warningNodes r.recorder answer.2 now = [] := by
        rw [hsilent, ← hchildren, hps]
        rfl
      rw [hnil] at hown ⊢
      rw [hok] at hown ⊢
      exact .leaf rfl rfl (hown none).1 (hown none).2 rfl hps hinside
    · have hsome : (actions.map Node.action ++ warningNodes r.recorder answer.2 now).isEmpty = false := by
        rw [← hchildren, List.isEmpty_eq_false_iff]
        exact List.append_ne_nil_of_left_ne_nil (by simpa using hps) _
      simp only [hsome, Bool.false_eq_true, if_false]
      exact .step rfl rfl (hown none).1 (hown none).2 hactions hwarning (Or.inr hps)

/-! ## One composite -/

/-- What a composite comes to: it adds one node to the record, and its attempts to the driver and the journal. -/
structure Performed (c : Composite) (r : TestRun σ) (outcome : Outcome Unit) (after : TestRun σ) : Prop where
  result : performComposite c r = (outcome, after)
  recorded : ∃ n now, after.recorder = r.recorder.gained [n] now ∧ ShowsComposite r.recorder c outcome.failure? n
  driven : ∃ d last discarded final, r.driver = some d ∧ after.driver = some last ∧
    Driver.Attempts (compositeOperation c r).replay c.primitives d discarded final outcome last ∧
    last.journal = d.journal ++
      (discarded ++ [final]).flatMap (Driver.attemptEntries (compositeOperation c r).replay)

variable {c : Composite} {cs : List Composite} {r : TestRun σ} {d : Driver}

theorem performed_of_returned (hr : r.driver = some d) (hd : d.contentScript = [])
    (hreturned : (performComposite c r).1.returned = true) :
    Performed c r (performComposite c r).1 (performComposite c r).2 ∧
      ∃ last, (performComposite c r).2.driver = some last ∧ last.contentScript = [] := by
  obtain ⟨now, hgained⟩ := performComposite_gained c hreturned
  obtain ⟨discarded, final, last, hlast, hattempts⟩ := attempts_unitOf c hr hd hreturned
  have hwrote := hattempts.wrote hd
  have hdriver : (unitOf c r).2.driver = (performComposite c r).2.driver := (alike_performComposite c r).driver
  rw [hdriver] at hlast
  have hshows := shows_compositeNode c r (unitOf c r).1 now failed_of_warned hattempts.ok_of_nil
  exact ⟨⟨rfl, ⟨_, now, hgained, hshows⟩, d, last, discarded, final, hr, hlast, hattempts, hwrote.journal⟩, last, hlast,
    hwrote.content.trans hd⟩

/-! ## Batches -/

/-- composites performed one after the other, each with success -/
inductive AllPerformed : List Composite → TestRun σ → TestRun σ → Prop where
  | nil (r : TestRun σ) : AllPerformed [] r r
  | cons {c : Composite} {cs : List Composite} {r t after : TestRun σ} (hc : Performed c r (.ok ()) t)
      (hcs : AllPerformed cs t after) : AllPerformed (c :: cs) r after

/-- How a batch ends: all composites succeeded, or those before one that failed. Of the composites behind it nothing was
done. -/
inductive BatchEnds (cs : List Composite) (r : TestRun σ) : Outcome Unit → TestRun σ → Prop where
  | all {after : TestRun σ} (hall : AllPerformed cs r after) : BatchEnds cs r (.ok ()) after
  | fails {before later : List Composite} {c : Composite} {t after : TestRun σ} {f : Failure}
      (hcs : cs = before ++ c :: later) (hbefore : AllPerformed before r t) (hc : Performed c t (.failed f) after) :
      BatchEnds cs r (.failed f) after

/-- the batch comes to a composite whose replay has no end, or a deadline that does not fit the clock -/
inductive Hangs (cs : List Composite) (r : TestRun σ) : Prop where
  | at {before later : List Composite} {c : Composite} {t : TestRun σ} (hcs : cs = before ++ c :: later)
      (hbefore : AllPerformed before r t) (hreplay : (compositeOperation c t).replay = true)
      (hend : (compositeTrial c t).NeverEnds)

theorem BatchEnds.cons {t after : TestRun σ} {outcome : Outcome Unit} (hc : Performed c r (.ok ()) t)
    (h : BatchEnds cs t outcome after) : BatchEnds (c :: cs) r outcome after := by
  cases h with
  | all hall => exact .all (.cons hc hall)
  | fails hcs hbefore hfails =>
    rw [hcs]
    exact .fails rfl (.cons hc hbefore) hfails

theorem Hangs.cons {t : TestRun σ} (hc : Performed c r (.ok ()) t) (h : Hangs cs t) : Hangs (c :: cs) r := by
  obtain ⟨hcs, hbefore, hreplay, hend⟩ := h
  rw [hcs]
  exact .at rfl (.cons hc hbefore) hreplay hend

theorem BatchEnds.returned {after : TestRun σ} {outcome : Outcome Unit} (h : BatchEnds cs r outcome after) :
    outcome.returned = true := by
  cases h with
  | all => rfl
  | fails => rfl

/-- behind composites that succeeded comes what is behind them -/
theorem performComposites_append {t : TestRun σ} (h : AllPerformed cs r t) (later : List Composite) :
    performComposites (cs ++ later) r = performComposites later t := by
  induction h with
  | nil => rfl
  | cons hc _ ih =>
    rw [List.cons_append, performComposites_cons, andThen, hc.result]
    exact ih

theorem Hangs.crashed (h : Hangs cs r) : (performComposites cs r).1.returned = false := by
  obtain ⟨hcs, hbefore, hreplay, hend⟩ := h
  rename_i before later c t
  obtain ⟨crash, hcrash⟩ := performComposite_crashed hreplay hend
  rw [hcs, performComposites_append hbefore, performComposites_cons, andThen]
  rcases hp : performComposite c t with ⟨outcome, after⟩
  rw [hp] at hcrash
  cases hcrash
  rfl

theorem batchEnds_or_hangs (cs : List Composite) (hr : r.driver = some d) (hd : d.contentScript = []) :
    BatchEnds cs r (performComposites cs r).1 (performComposites cs r).2 ∨ Hangs cs r := by
  induction cs generalizing r d with
  | nil => exact .inl (.all (.nil r))
  | cons c cs ih =>
    have hreturned := performComposite_returned c r
    have hperformed := performed_of_returned (c := c) hr hd
    rw [performComposites_cons, andThen]
    rcases hp : performComposite c r with ⟨answer | f | crash, after⟩ <;> rw [hp] at hreturned hperformed
    · obtain ⟨hc, last, hlast, hcontent⟩ := hperformed rfl
      exact (ih hlast hcontent).imp (BatchEnds.cons hc) (Hangs.cons hc)
    · exact .inl (.fails (List.nil_append (c :: cs)).symm (.nil r) (hperformed rfl).1)
    · obtain ⟨hreplay, hend⟩ := hreturned.resolve_left Bool.false_ne_true
      exact .inr (.at (List.nil_append (c :: cs)).symm (.nil r) hreplay hend)

/-- a batch crashes for a deadline or does not crash at all, on a clock that goes on -/
theorem performComposites_returned_iff (cs : List Composite) (hr : Ready r) :
    (performComposites cs r).1.returned = true ↔ ∀ x ∈ compositesBegun cs r, ¬ x.Overflows := by
  have hexplained := (accounts_performComposites (σ := σ) cs).explained r
  have hoverflow := hexplained.overflow
  have hbudget := hexplained.budget
  have hends := hexplained.ends hr
  generalize (performComposites cs r).1 = outcome at hoverflow hbudget hends
  constructor
  · intro hreturned x hx hover
    exact ne_crashed_of_returned hreturned _ (hoverflow.2 ⟨x, hx, hover⟩)
  · intro hfits
    rcases outcome with answer | f | crash
    · rfl
    · rfl
    · cases crash with
      | deadlineOverflow =>
        obtain ⟨x, hx, hover⟩ := hoverflow.1 rfl
        exact absurd hover (hfits x hx)
      | endless => exact absurd rfl hends
      | budgetOverflow => exact absurd rfl hbudget

/-- **Composites are done whole or not at all, unless a deadline does not fit.** Let nothing be scripted for the driver's
way to the top document; in a plan nothing can be. Then a batch is performed in order, up to the first composite that
fails. The failure of this one is that of the batch, and the test stays as it left it. Each composite that came back has
added one node to the record, with one action for each primitive, however many attempts it took. Where it succeeded, the
last attempt executed every primitive once, in order, and nothing in the node is failed. Where it failed, the last attempt
ended with the primitive that failed, every action is failed and shows no exception, and the step shows the failure.

This is so exactly if the batch does not come to a replay without an end, or with a deadline that does not fit the
clock. With a delay between attempts, on a clock that never goes back and shows the pauses, it is so exactly if the
deadline of each replay that begins fits. -/
theorem composites_all_or_nothing (cs : List Composite) (r : TestRun σ) (d : Driver) (hr : r.driver = some d)
    (hd : d.contentScript = []) :
    (BatchEnds cs r (performComposites cs r).1 (performComposites cs r).2 ↔ ¬ Hangs cs r) ∧
      (Ready r → (BatchEnds cs r (performComposites cs r).1 (performComposites cs r).2 ↔
        ∀ x ∈ compositesBegun cs r, ¬ x.Overflows)) := by
  have hcases := batchEnds_or_hangs cs hr hd
  have hnot : BatchEnds cs r (performComposites cs r).1 (performComposites cs r).2 → ¬ Hangs cs r := fun hends hangs =>
    Bool.false_ne_true (hangs.crashed.symm.trans hends.returned)
  refine ⟨⟨hnot, hcases.resolve_right⟩, fun hready => ?_⟩
  rw [← performComposites_returned_iff cs hready]
  constructor
  · exact BatchEnds.returned
  · intro hreturned
    exact hcases.resolve_right fun hangs => Bool.false_ne_true (hangs.crashed.symm.trans hreturned)

/-- picking, paying and leaving, each of two commands -/
def visit : List Composite :=
  [{ id := "pick", primitives := [{ command := "move" }, { command := "click" }] },
    { id := "pay", primitives := [{ command := "type" }, { command := "submit" }] },
    { id := "leave", primitives := [{ command := "move" }, { command := "close" }] }]

/-- a page that is not ready for the first click, and does not take the form -/
def shopping : TestRun Unit :=
  { TestRun.start "visit" {} (.ofList []) (.steady 0) {} noon () with
    driver := some ((Driver.failNext {} "click" 1 ⟨.stale, "click"⟩).alwaysFail "submit" ⟨.driver, "submit"⟩) }

/-- the first composite takes two attempts, the second one fails, and the third one is not begun -/
theorem visit_ends_with_pay :
    (performComposites visit shopping).1 = .failed ⟨.driver, "submit"⟩ ∧
      (performComposites visit shopping).2.driver.map Driver.commands =
        some ["move", "click", "move", "click", "type", "submit"] ∧
      (performComposites visit shopping).2.recorder.roots.map (fun n => (n.failed, n.children.map Node.failed)) =
        [(false, [false, false]), (true, [true, true])] ∧
      BatchEnds visit shopping (.failed ⟨.driver, "submit"⟩) (performComposites visit shopping).2 := by
  have hfailed : (performComposites visit shopping).1 = .failed ⟨.driver, "submit"⟩ := by decide +kernel
  have hready : Ready shopping := ⟨by decide, Clock.steady_advances 0⟩
  have hfits : ∀ x ∈ compositesBegun visit shopping, ¬ x.Overflows := by decide +kernel
  have hends := ((composites_all_or_nothing visit shopping _ rfl rfl).2 hready).2 hfits
  rw [hfailed] at hends
  exact ⟨hfailed, by decide +kernel, by decide +kernel, hends⟩

/-- the same page, under a replay timeout that the settings take and no deadline fits -/
def shoppingForEver : TestRun Unit := { shopping with settings := { replayTimeout := Word.limit64 - 1 } }

/-- the first composite crashes before it has executed anything -/
theorem nothing_paid_under_endless_timeout :
    shoppingForEver.settings.problem? = none ∧
      (performComposites visit shoppingForEver).1 = .crashed .deadlineOverflow ∧
      (performComposites visit shoppingForEver).2.driver.map Driver.commands = some [] := by
  decide +kernel

end TestRun

end TestTrail
