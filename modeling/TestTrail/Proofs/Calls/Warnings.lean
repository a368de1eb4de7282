/-
The warning of a replay that gave up.

A call that is replayed ends in one of four ways: as an action, inside a step of its own, as a composite, or, where tests
manage their steps themselves, with nothing recorded at all. `Made` is such a call around any code, so that whatever is
recorded inside it, by further calls or otherwise, is part of its replay. Behind the replay the call records its own
actions, then the warning, in the step that is innermost there, and closes the step it opened (`recorder_run`).

`warnings` reads the warnings off a record, below closed and open steps alike. A call adds its warning behind them and
nothing else (`exhausted_replay_reported`), unless tests manage their steps themselves: then the warning of a step is
lost (`no_warning_in_manual_steps`). It is not lost to a replay around the call, since that makes no further attempt.
-/
import TestTrail.Proofs.Calls.Nesting
import TestTrail.Proofs.Calls.Scripts
import TestTrail.Proofs.Recorder.Listing

namespace TestTrail

open Recorder

variable {σ α : Type}

/-! ## The warnings of a record -/

namespace Node

mutual

/-- the warnings at the node and below it, in the order of recording -/
def warnings : Node → List Message
  | step _ cs => forestWarnings cs
  | action _ => []
  | message m => if m.level = .warning then [m] else []

def forestWarnings : List Node → List Message
  | [] => []
  | n :: ns => n.warnings ++ forestWarnings ns

end

theorem forestWarnings_append (ns ms : List Node) :
    forestWarnings (ns ++ ms) = forestWarnings ns ++ forestWarnings ms := by
  induction ns with
  | nil => rfl
  | cons n ns ih => rw [List.cons_append, forestWarnings, forestWarnings, ih, List.append_assoc]

theorem forestWarnings_singleton (n : Node) : forestWarnings [n] = n.warnings := List.append_nil _

theorem forestWarnings_of_warnings {ms : List Message} (h : ∀ m ∈ ms, m.level = .warning) :
    forestWarnings (ms.map .message) = ms := by
  induction ms with
  | nil => rfl
  | cons m ms ih =>
    rw [List.map_cons, forestWarnings, ih fun x hx => h x (List.mem_cons_of_mem m hx), warnings,
      if_pos (h m List.mem_cons_self)]
    rfl

theorem forestWarnings_of_actions {ns : List Node} (h : ∀ n ∈ ns, ∃ a, n = .action a) : forestWarnings ns = [] := by
  induction ns with
  | nil => rfl
  | cons n ns ih =>
    obtain ⟨a, rfl⟩ := h n List.mem_cons_self
    rw [forestWarnings, ih fun x hx => h x (List.mem_cons_of_mem _ hx)]
    rfl

end Node

namespace Recorder

/-- the warnings of the record, in the order of recording; those below open steps come last -/
def warnings (r : Recorder) : List Message :=
  Node.forestWarnings r.roots ++ r.openSteps.reverse.flatMap fun s => Node.forestWarnings s.children

variable {r : Recorder}

/-- marks on open steps are no matter -/
theorem warnings_mark (r : Recorder) (b : Bool) :
    warnings { r with openSteps := r.openSteps.map (marked b) } = r.warnings := by
  unfold warnings
  rw [← List.map_reverse, List.flatMap_map]
  rfl

theorem warnings_attach (r : Recorder) (n : Node) : (r.attach n).warnings = r.warnings ++ n.warnings := by
  unfold warnings
  cases ho : r.openSteps with
  | nil =>
    rw [attach_nil r ho, Node.forestWarnings_append, Node.forestWarnings_singleton, ho]
    simp
  | cons x outer =>
    rw [attach_cons r x outer ho]
    simp [adding, List.flatMap_append, Node.forestWarnings_append, Node.forestWarnings_singleton]

theorem warnings_gained (r : Recorder) (ns : List Node) (now : Timestamp) :
    (r.gained ns now).warnings = r.warnings ++ Node.forestWarnings ns := by
  cases ho : r.openSteps with
  | nil =>
    rw [gained_root ho]
    simp [warnings, grownRoots, ho, Node.forestWarnings_append]
  | cons p outer =>
    rw [gained_inside ho]
    simp only [warnings, recorded, ho, List.reverse_cons, List.flatMap_append, List.flatMap_singleton, adding,
      Node.forestWarnings_append, ← List.map_reverse, List.flatMap_map, List.append_assoc]
    rfl

/-- a step that becomes an action on closing has no warnings -/
theorem warnings_closedNode (s : Step) (outer : List Step) :
    (closedNode s outer).warnings = Node.forestWarnings s.children := by
  unfold closedNode
  split
  · rename_i hempty
    rw [Bool.and_eq_true] at hempty
    rw [List.isEmpty_iff.1 hempty.2]
    rfl
  · rfl

theorem warnings_closeStep (r : Recorder) (outcome : Option Failure) :
    (r.closeStep outcome).warnings = r.warnings := by
  cases ho : r.openSteps with
  | nil => rw [closeStep_nil r ho]
  | cons x outer =>
    rw [closeStep_cons r x outer ho, warnings_attach, warnings_closedNode, children_closedStep,
      warnings_mark { r with openSteps := outer }]
    unfold warnings
    rw [ho, List.reverse_cons, List.flatMap_append, List.flatMap_singleton, List.append_assoc]

end Recorder

/-! ## Replays that give up -/

namespace Replay

variable {e : Replay} {deadline : Nat} {frame : Option String} {body : Body σ α}

/-- a replay gives up exactly if it hands on a transient failure -/
theorem exhausted_eq_isTransient (fuel done : Nat) (r : TestRun σ) :
    (attemptsFrom e deadline frame body fuel done r).1.exhausted =
      (attemptsFrom e deadline frame body fuel done r).1.result.isTransient := by
  induction fuel generalizing done r with
  | zero => rfl
  | succ fuel ih =>
    rw [attemptsFrom]
    rcases attempt frame body r with ⟨a | f | c, after⟩
    · rfl
    · simp only
      by_cases ht : f.transient = true
      · rw [if_pos ht]
        split
        · exact ht.symm
        · exact ih (done + 1) _
      · rw [if_neg ht]
        exact (Bool.eq_false_iff.2 ht).symm
    · rfl

end Replay

namespace Trial

variable {t : Trial σ α}

theorem exhausted_eq_isTransient (t : Trial σ α) : t.run.1.exhausted = t.run.1.result.isTransient := by
  unfold run
  by_cases hlimit : Replay.clockLimit ≤ t.start.clock.now + t.replay.timeout
  · rw [Replay.run_of_overflow hlimit]
    rfl
  · rw [Replay.run_of_fits hlimit]
    exact Replay.exhausted_eq_isTransient _ _ _

end Trial

/-! ## Calls that are replayed -/

/-- a call around any code -/
inductive Made (σ : Type) : Type → Type 1 where
  | operation {α : Type} (i : Invocation) (body : Body σ α) : Made σ α
  | composite (c : Composite) : Made σ Unit

namespace Made

open TestRun

def run : Made σ α → Body σ α
  | operation i body => intercept i body
  | composite c => performComposite c

/-- the operation that is called, if it is declared; composites need not be -/
def operation? (r : TestRun σ) : Made σ α → Option Operation
  | operation i _ => r.registry.get? i.operation
  | composite c => some (compositeOperation c r)

def frame : Made σ α → Option String
  | operation i _ => i.frame
  | composite _ => none

/-- the code that is tried -/
def body : Made σ α → Body σ α
  | operation _ body => body
  | composite c => unit c.primitives

/-- the step that the call has for itself, if it has one -/
def ownStep? (op : Operation) (r : TestRun σ) : Made σ α → Option Step
  | operation i _ => if op.kind = .action ∨ r.settings.manualTestSteps = true then none else some (r.stepOf op i)
  | composite c => some (compositeStep c r)

/-- a step of a test that manages its steps itself: nothing is recorded of the call -/
def muted (op : Operation) (r : TestRun σ) : Made σ α → Bool
  | operation _ _ => op.kind != .action && r.settings.manualTestSteps
  | composite _ => false

/-- the actions that the call records of itself, on a record as it is behind the replay -/
def actions (op : Operation) (r : TestRun σ) (outcome : Outcome α) (s : Recorder) : Made σ α → List Node
  | operation i _ =>
    if op.kind = .action then [actionNode s (actionOf (r.actionName op i) op i outcome s.now)] else []
  | composite c => c.primitives.map fun p => actionNode s (primitiveAction c outcome s.now p)

/-- the test when the replay begins -/
def entered (op : Operation) (r : TestRun σ) (c : Made σ α) : TestRun σ :=
  match c.ownStep? op r with
  | some s => r.record fun rec => rec.openStep s
  | none => r

/-- the replay of the call -/
def trial (op : Operation) (r : TestRun σ) (c : Made σ α) : Trial σ α :=
  ⟨Replay.ofSettings r.settings, c.frame, c.body, c.entered op r⟩

/-- the end of the step, if the call has one -/
def closed (op : Operation) (r : TestRun σ) (outcome : Outcome α) (s : Recorder) (c : Made σ α) : Recorder :=
  if (c.ownStep? op r).isSome then s.closeStep outcome.failure? else s

/-- the warning that is due when the replay has given up -/
def warning (op : Operation) (r : TestRun σ) (c : Made σ α) : Message :=
  let t := c.trial op r
  ⟨t.run.2.recorder.masked (t.replay.exhaustedMessage t.run.1.attempts), .warning, t.run.2.recorder.now⟩

/-- the warnings that are due -/
def due (op : Operation) (r : TestRun σ) (c : Made σ α) : List Message :=
  if (c.trial op r).run.1.exhausted then [c.warning op r] else []

/-- the warnings that the call records -/
def reported (op : Operation) (r : TestRun σ) (c : Made σ α) : List Message :=
  if c.muted op r then [] else c.due op r

variable {c : Made σ α} {op : Operation} {r : TestRun σ}

theorem level_of_mem_reported {m : Message} (h : m ∈ c.reported op r) : m.level = .warning := by
  unfold reported due at h
  split at h
  · exact absurd h List.not_mem_nil
  · split at h
    · rw [List.mem_singleton.1 h]
      rfl
    · exact absurd h List.not_mem_nil

theorem actions_are_actions {outcome : Outcome α} {s : Recorder} {n : Node} (h : n ∈ c.actions op r outcome s) :
    ∃ a, n = .action a := by
  cases c with
  | operation i body =>
    simp only [actions] at h
    split at h
    · exact ⟨_, List.mem_singleton.1 h⟩
    · exact absurd h List.not_mem_nil
  | composite c =>
    obtain ⟨p, -, rfl⟩ := List.mem_map.1 h
    exact ⟨_, rfl⟩

/-- the warning as it is recorded on what the replay has left -/
theorem warningNodes_answerOf (c : Made σ α) (op : Operation) (r : TestRun σ) :
    warningNodes (c.trial op r).run.2.recorder (answerOf (c.trial op r).replay (c.trial op r).run).1.2
        (c.trial op r).run.2.recorder.now =
      (c.due op r).map .message := by
  rw [answerOf_warning]
  unfold due
  split
  · rfl
  · rfl

/-- what a call comes to behind its replay -/
structure Ends (c : Made σ α) (op : Operation) (r : TestRun σ) : Prop where
  result : (c.run r).1 = (c.trial op r).run.1.result
  clock : (c.run r).2.clock = (c.trial op r).run.2.clock
  recorder : (c.run r).2.recorder =
    c.closed op r (c.run r).1
      ((c.trial op r).run.2.recorder.gained
        (c.actions op r (c.run r).1 (c.trial op r).run.2.recorder ++ (c.reported op r).map .message)
        (c.trial op r).run.2.recorder.now)

/-- a record as it is has gained nothing -/
theorem gained_now (s : Recorder) : s.gained [] s.now = s := gained_nil s s.now

theorem entered_of_none (h : c.ownStep? op r = none) : c.entered op r = r := by
  unfold entered
  rw [h]

theorem entered_of_some {x : Step} (h : c.ownStep? op r = some x) :
    c.entered op r = r.record fun rec => rec.openStep x := by
  unfold entered
  rw [h]

theorem closed_of_none (h : c.ownStep? op r = none) (outcome : Outcome α) (s : Recorder) :
    c.closed op r outcome s = s := by
  unfold closed
  rw [h]
  exact if_neg Bool.false_ne_true

theorem closed_of_some {x : Step} (h : c.ownStep? op r = some x) (outcome : Outcome α) (s : Recorder) :
    c.closed op r outcome s = s.closeStep outcome.failure? := by
  unfold closed
  rw [h]
  exact if_pos rfl

theorem reported_of_not_muted (h : c.muted op r = false) : c.reported op r = c.due op r := by
  unfold reported
  rw [h]
  exact if_neg Bool.false_ne_true

theorem acting_result (name : String) (op : Operation) (i : Invocation) (p : (Outcome α × Option String) × TestRun σ) :
    (acting name op i p).1 = p.1.1 := rfl

theorem recordPrimitives_answer (x : Composite) (p : (Outcome α × Option String) × TestRun σ) :
    (recordPrimitives x p).1 = p.1 := rfl

theorem closing_result (p : (Outcome α × Option String) × TestRun σ) : (closing p).1 = p.1.1 := rfl

theorem recordPrimitives_now (x : Composite) (p : (Outcome α × Option String) × TestRun σ) :
    (recordPrimitives x p).2.recorder =
      p.2.recorder.gained
        (x.primitives.map fun q => actionNode p.2.recorder (primitiveAction x p.1.1 p.2.recorder.now q))
        p.2.recorder.now :=
  recordPrimitives_gained rfl x

/-- an action ends with its node, and then the warning -/
theorem acting_now (name : String) (op : Operation) (i : Invocation) (p : (Outcome α × Option String) × TestRun σ) :
    (acting name op i p).2.recorder =
      p.2.recorder.gained
        ([actionNode p.2.recorder (actionOf name op i p.1.1 p.2.recorder.now)] ++
          warningNodes p.2.recorder p.1.2 p.2.recorder.now) p.2.recorder.now :=
  acting_gained rfl name op i

section Operations

variable {i : Invocation} {body : Body σ α}

theorem ends_action (hop : r.registry.get? i.operation = some op) (hreplay : op.replay = true)
    (hk : op.kind = .action) : (operation i body).Ends op r := by
  have hstep : (operation i body).ownStep? op r = none := if_pos (Or.inl hk)
  have hmuted : (operation i body).muted op r = false := by
    unfold muted
    rw [hk]
    rfl
  have hrun : (operation i body).run r =
      acting (r.actionName op i) op i
        (answerOf ((operation i body).trial op r).replay ((operation i body).trial op r).run) := by
    refine (intercept_action hop hk body).trans ?_
    rw [interceptAction_eq, execute_replay hreplay]
    unfold trial
    rw [entered_of_none hstep]
    rfl
  have hresult : ((operation i body).run r).1 = ((operation i body).trial op r).run.1.result := by
    rw [hrun, acting_result, answerOf_result]
  have hactions : ∀ s, (operation i body).actions op r ((operation i body).trial op r).run.1.result s =
      [actionNode s (actionOf (r.actionName op i) op i ((operation i body).trial op r).run.1.result s.now)] :=
    fun s => if_pos hk
  refine ⟨hresult, ?_, ?_⟩
  · rw [hrun, ← (alike_acting _ op i _).clock, answerOf_run]
  · rw [closed_of_none hstep, reported_of_not_muted hmuted, hresult, hactions, ← warningNodes_answerOf, hrun, acting_now,
      answerOf_run, answerOf_result]

/-- a call inside its step ends with the warning, and then the step is closed -/
theorem closing_gained_now {s : Recorder} {ns : List Node} {now : Timestamp}
    {p : (Outcome α × Option String) × TestRun σ} (h : p.2.recorder = s.gained ns now) :
    (closing p).2.recorder = (s.gained (ns ++ warningNodes s p.1.2 now) now).closeStep p.1.1.failure? := by
  rw [← warn_gained h]
  rfl

theorem ends_step (hop : r.registry.get? i.operation = some op) (hreplay : op.replay = true)
    (hk : ¬ op.kind = .action) (hm : ¬ r.settings.manualTestSteps = true) : (operation i body).Ends op r := by
  have hstep : (operation i body).ownStep? op r = some (r.stepOf op i) := if_neg (not_or.2 ⟨hk, hm⟩)
  have hmuted : (operation i body).muted op r = false := by
    unfold muted
    rw [Bool.eq_false_iff.2 hm, Bool.and_false]
  have hrun : (operation i body).run r =
      closing (answerOf ((operation i body).trial op r).replay ((operation i body).trial op r).run) := by
    refine (intercept_step hop hk body).trans ?_
    rw [interceptStep_eq op i body hm, execute_replay hreplay]
    unfold trial
    rw [entered_of_some hstep]
    rfl
  have hresult : ((operation i body).run r).1 = ((operation i body).trial op r).run.1.result := by
    rw [hrun, closing_result, answerOf_result]
  have hactions : ∀ s, (operation i body).actions op r ((operation i body).trial op r).run.1.result s = [] :=
    fun s => if_neg hk
  refine ⟨hresult, ?_, ?_⟩
  · rw [hrun, ← (alike_closing _).clock, answerOf_run]
  · rw [closed_of_some hstep, reported_of_not_muted hmuted, hresult, hactions, ← warningNodes_answerOf, hrun,
      closing_gained_now (gained_now _).symm, answerOf_run, answerOf_result]

/-- where tests manage their steps themselves, a step ends as its replay does -/
theorem intercept_manual (hop : r.registry.get? i.operation = some op) (hk : ¬ op.kind = .action)
    (hm : r.settings.manualTestSteps = true) (body : Body σ α) :
    (intercept i body r).1 = (execute op i.frame body r).1.1 ∧
      (intercept i body r).2 = (execute op i.frame body r).2 := by
  rw [intercept_step hop hk, interceptStep_manual op i body hm]
  generalize execute op i.frame body r = p
  exact ⟨rfl, rfl⟩

theorem ends_muted (hop : r.registry.get? i.operation = some op) (hreplay : op.replay = true)
    (hk : ¬ op.kind = .action) (hm : r.settings.manualTestSteps = true) : (operation i body).Ends op r := by
  have hstep : (operation i body).ownStep? op r = none := if_pos (Or.inr hm)
  have hreported : (operation i body).reported op r = [] := by
    have hmuted : (operation i body).muted op r = true := by
      unfold muted
      rw [hm, Bool.and_true]
      exact bne_iff_ne.2 hk
    exact if_pos hmuted
  have htrial : ((operation i body).trial op r).run = (Replay.ofSettings r.settings).run i.frame body r := by
    unfold trial
    rw [entered_of_none hstep]
    rfl
  obtain ⟨hresult, hrun⟩ := intercept_manual hop hk hm body
  rw [execute_replay hreplay, answerOf_result, ← htrial] at hresult
  rw [execute_replay hreplay, answerOf_run, ← htrial] at hrun
  have hactions : ∀ s, (operation i body).actions op r ((operation i body).run r).1 s = [] := fun s => if_neg hk
  refine ⟨hresult, congrArg TestRun.clock hrun, ?_⟩
  rw [closed_of_none hstep, hreported, hactions, List.map_nil, List.append_nil, gained_now]
  exact congrArg TestRun.recorder hrun

end Operations

theorem ends_composite (x : Composite) (op : Operation) (hop : compositeOperation x r = op)
    (hreplay : op.replay = true) : (composite x : Made σ Unit).Ends op r := by
  subst hop
  have hstep : (composite x : Made σ Unit).ownStep? (compositeOperation x r) r = some (compositeStep x r) := rfl
  have hrun : (composite x : Made σ Unit).run r =
      closing (recordPrimitives x (answerOf ((composite x).trial (compositeOperation x r) r).replay
        ((composite x).trial (compositeOperation x r) r).run)) := by
    refine (performComposite_eq x r).trans ?_
    rw [execute_replay hreplay]
    unfold trial
    rw [entered_of_some hstep]
    rfl
  have hresult : ((composite x : Made σ Unit).run r).1 =
      ((composite x : Made σ Unit).trial (compositeOperation x r) r).run.1.result := by
    rw [hrun, closing_result, recordPrimitives_answer, answerOf_result]
  have hactions : ∀ (outcome : Outcome Unit) (s : Recorder),
      (composite x : Made σ Unit).actions (compositeOperation x r) r outcome s =
        x.primitives.map fun p => actionNode s (primitiveAction x outcome s.now p) := fun _ _ => rfl
  refine ⟨hresult, ?_, ?_⟩
  · rw [hrun, ← (alike_closing _).clock, ← (alike_recordPrimitives x _).clock, answerOf_run]
  · rw [closed_of_some hstep, reported_of_not_muted rfl, hresult, hactions, ← warningNodes_answerOf, hrun,
      closing_gained_now (recordPrimitives_now x _), recordPrimitives_answer, answerOf_run, answerOf_result]

theorem ends_of_replay (hop : c.operation? r = some op) (hreplay : op.replay = true) : c.Ends op r := by
  cases c with
  | operation i body =>
    by_cases hk : op.kind = .action
    · exact ends_action hop hreplay hk
    · by_cases hm : r.settings.manualTestSteps = true
      · exact ends_muted hop hreplay hk hm
      · exact ends_step hop hreplay hk hm
  | composite x => exact ends_composite x op (Option.some.inj hop) hreplay

/-- behind the warnings that the replay has left there are those of the call, and no others -/
theorem Ends.warnings (h : c.Ends op r) :
    (c.run r).2.recorder.warnings = (c.trial op r).run.2.recorder.warnings ++ c.reported op r := by
  have hclosed : ∀ (outcome : Outcome α) (s : Recorder), (c.closed op r outcome s).warnings = s.warnings := by
    intro outcome s
    unfold closed
    split
    · exact warnings_closeStep s outcome.failure?
    · rfl
  rw [h.recorder, hclosed, warnings_gained, Node.forestWarnings_append,
    Node.forestWarnings_of_actions fun n hn => actions_are_actions hn,
    Node.forestWarnings_of_warnings fun m hm => level_of_mem_reported hm, List.nil_append]

theorem reported_eq_due_iff :
    c.reported op r = c.due op r ↔ ¬ (c.muted op r = true ∧ (c.trial op r).run.1.exhausted = true) := by
  unfold reported due
  cases c.muted op r with
  | false => simp
  | true =>
    cases (c.trial op r).run.1.exhausted with
    | false => simp
    | true => simp

/-! ## Replays around the call -/

theorem alike_entered (c : Made σ α) (op : Operation) (r : TestRun σ) : Alike r (c.entered op r) := by
  unfold entered
  split
  · exact alike_record r _
  · exact Alike.refl r

/-- an attempt in which a replay is given up is the last one, and so are the attempts around it -/
theorem Ends.last_around (h : c.Ends op r) (honward : ∀ t, Onward t (c.body t).2)
    (hexhausted : (c.trial op r).run.1.exhausted = true) {outer : Floor σ} {enclosing : List (Floor σ)}
    (htower : outer.Tower enclosing) (hunderway : outer.UnderWay) (hbefore : Onward outer.begun r)
    (hbehind : Onward (c.run r).2 outer.trying.2) : ∀ f ∈ outer :: enclosing, f.Last := by
  have houter := htower.replayed outer List.mem_cons_self
  have hback : r.clock.NeverGoesBack :=
    (passage_onward.trans houter.onward_begun hbefore).clock.neverGoesBack houter.clock
  have hthrough : Onward r (c.trial op r).run.2 :=
    passage_onward.trans (passage_onward.alike (alike_entered c op r))
      (beside_onward.replay honward (c.trial op r).replay c.frame (c.trial op r).start)
  have hlate := Trial.late_of_exhausted hexhausted (hthrough.clock.neverGoesBack hback)
  have hdeadline : outer.trial.deadline ≤ (c.trial op r).deadline := by
    have hle := Floor.deadline_le_of_onward houter hbefore
    unfold Trial.deadline trial
    rw [← (alike_entered c op r).clock]
    exact hle
  have hover : outer.trial.deadline ≤ outer.trying.2.clock.now := by
    rw [← h.clock] at hlate
    refine hdeadline.trans (hlate.trans (hbehind.clock.now_mono ?_))
    rw [h.clock]
    exact hthrough.clock.neverGoesBack hback
  intro f hf
  rcases List.mem_cons.1 hf with rfl | hf
  · exact (Floor.last_of_late hunderway hover).1
  · have hall := htower.deadlines_le (Floor.late_of_makes houter hunderway hover)
    exact (Floor.last_of_late (htower.underWay f hf) (hall f hf)).1

/-- **A replay that gives up is reported, but for steps of tests that manage their steps themselves.** Whatever code is
called, with whatever is recorded in it, when the operation is declared and replayed:

* the call ends as its replay does, and the replay gives up exactly if that is a transient failure;
* behind the replay the call records its own actions, and then the warning if the replay gave up, in the step that is
  current there or as roots; then it closes the step it opened. So the warnings in the record are those that the replay
  has left, and behind them this one or none;
* where tests manage their steps themselves, the warning of a call that is no action is not recorded. These are the only
  calls that do not record what is due;
* when the call is made in attempts of other replays, to any depth and on a clock that never goes back, no attempt around
  it is discarded once it has given up. -/
theorem exhausted_replay_reported (c : Made σ α) (op : Operation) (r : TestRun σ) (hop : c.operation? r = some op)
    (hreplay : op.replay = true) :
    (c.run r).1 = (c.trial op r).run.1.result ∧
      (c.trial op r).run.1.exhausted = (c.trial op r).run.1.result.isTransient ∧
      (c.run r).2.recorder =
        c.closed op r (c.run r).1
          ((c.trial op r).run.2.recorder.gained
            (c.actions op r (c.run r).1 (c.trial op r).run.2.recorder ++ (c.reported op r).map .message)
            (c.trial op r).run.2.recorder.now) ∧
      (c.run r).2.recorder.warnings = (c.trial op r).run.2.recorder.warnings ++ c.reported op r ∧
      ((c.run r).2.recorder.warnings = (c.trial op r).run.2.recorder.warnings ++ c.due op r ↔
        ¬ (c.muted op r = true ∧ (c.trial op r).run.1.exhausted = true)) ∧
      ((c.trial op r).run.1.exhausted = true → (∀ t, Onward t (c.body t).2) →
        ∀ (outer : Floor σ) (enclosing : List (Floor σ)), outer.Tower enclosing → outer.UnderWay →
          Onward outer.begun r → Onward (c.run r).2 outer.trying.2 → ∀ f ∈ outer :: enclosing, f.Last) := by
  have hends := ends_of_replay hop hreplay
  refine ⟨hends.result, Trial.exhausted_eq_isTransient _, hends.recorder, hends.warnings, ?_, ?_⟩
  · rw [hends.warnings, List.append_cancel_left_eq, reported_eq_due_iff]
  · intro hexhausted honward outer enclosing htower hunderway hbefore hbehind
    exact hends.last_around honward hexhausted htower hunderway hbefore hbehind

/-- a click, given up inside a payment and that inside a checkout -/
def clickInside : Made Unit String := .operation { operation := "click" } (command "click" none [])

/-- the click is given up after four attempts and says so; the attempts around it are the last ones, so it stays said -/
theorem click_reported_inside_checkout :
    (clickInside.trial Floor.click Floor.atPay.begun).run.1.exhausted = true ∧
      (clickInside.run Floor.atPay.begun).2.recorder.warnings =
        (clickInside.trial Floor.click Floor.atPay.begun).run.2.recorder.warnings ++
          [clickInside.warning Floor.click Floor.atPay.begun] ∧
      (clickInside.warning Floor.click Floor.atPay.begun).text = "replay timeout of 1s exhausted after 4 attempts" ∧
      ∀ f ∈ [Floor.atPay, Floor.atCheckout], f.Last := by
  have hop : clickInside.operation? Floor.atPay.begun = some Floor.click := by decide +kernel
  have hexhausted : (clickInside.trial Floor.click Floor.atPay.begun).run.1.exhausted = true := by decide +kernel
  have hdue : clickInside.due Floor.click Floor.atPay.begun = [clickInside.warning Floor.click Floor.atPay.begun] :=
    if_pos hexhausted
  obtain ⟨htower, -⟩ := Floor.tower_of_checkout
  have hcall : Floor.atClick.call = clickInside.run Floor.atPay.begun := rfl
  have hbehind := htower.made.rel.behind
  rw [hcall] at hbehind
  obtain ⟨-, -, -, hwarnings, -, hlast⟩ := exhausted_replay_reported clickInside Floor.click Floor.atPay.begun hop rfl
  rw [reported_of_not_muted rfl, hdue] at hwarnings
  exact ⟨hexhausted, hwarnings, by decide +kernel,
    hlast hexhausted (beside_onward.command _ _ _) Floor.atPay [Floor.atCheckout] htower.tail
      (htower.underWay Floor.atPay List.mem_cons_self) (beside_onward.refl _) hbehind⟩

/-- a test that manages its steps itself, on a page whose click never works -/
def ownSteps : TestRun Unit :=
  { TestRun.start "buy" { manualTestSteps := true, replayTimeout := 0, replayDelayMs := 1 } (.ofList [Floor.checkout])
      (.steady 0) {} noon () with
    driver := some (Driver.alwaysFail {} "click" ⟨.stale, "click"⟩) }

/-- a checkout that is one click -/
def checkoutByClick : Made Unit String := .operation { operation := "checkout" } (command "click" none [])

/-- the replay of the checkout is given up and a warning is due, but the record has none -/
theorem no_warning_in_manual_steps :
    (checkoutByClick.trial Floor.checkout ownSteps).run.1.exhausted = true ∧
      (checkoutByClick.trial Floor.checkout ownSteps).run.1.attempts = 1 ∧
      (checkoutByClick.due Floor.checkout ownSteps).map Message.text =
        ["replay timeout of 0s exhausted after 1 attempts"] ∧
      (checkoutByClick.run ownSteps).2.recorder.warnings = [] := by
  decide +kernel

end Made

end TestTrail
