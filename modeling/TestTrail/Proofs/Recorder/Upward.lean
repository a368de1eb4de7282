/-
Failures go upward.

When something fails, every step around it counts as failed, whether it has been closed or is still open; and what carries
an exception counts as failed itself. `Node.Upward` says so of a node and everything below it, `Upward` of a recorder with
its open steps.

`Reached` has the recorders that a test can reach, each with the checkpoints it can still go back to: any operations in
any order, time that passes, and checkpoints with their rollbacks, properly nested. Between a checkpoint and its rollback
no step is closed that was open at the checkpoint; where none was open, anything may happen.

A rollback takes failure marks off again, so it has to give back a recorder that is fine itself. `Pending` is the invariant
for that: every checkpoint that can still be gone back to is one of a recorder that is `Upward` and has only been
extended since. `failures_go_upward` is the result.
-/
import TestTrail.Proofs.Recorder.Rollback

namespace TestTrail

namespace Node

mutual

/-- the node or one below it failed -/
def hasFailure : Node → Bool
  | step h cs => h.failed || anyFailure cs
  | action a => a.failed
  | message _ => false

def anyFailure : List Node → Bool
  | [] => false
  | n :: ns => n.hasFailure || anyFailure ns

end

mutual

/-- at the node and below it, a step failed if anything below it did, and what carries an exception failed -/
def Upward : Node → Prop
  | step h cs =>
    (anyFailure cs = true → h.failed = true) ∧ (h.exception.isSome = true → h.failed = true) ∧ AllUpward cs
  | action a => a.exception.isSome = true → a.failed = true
  | message _ => True

def AllUpward : List Node → Prop
  | [] => True
  | n :: ns => n.Upward ∧ AllUpward ns

end

theorem anyFailure_append (ns ms : List Node) : anyFailure (ns ++ ms) = (anyFailure ns || anyFailure ms) := by
  induction ns with
  | nil => rfl
  | cons n ns ih => rw [List.cons_append, anyFailure, anyFailure, ih, Bool.or_assoc]

theorem allUpward_iff {ns : List Node} : AllUpward ns ↔ ∀ n ∈ ns, n.Upward := by
  induction ns with
  | nil => simp [AllUpward]
  | cons n ns ih => rw [AllUpward, ih, List.forall_mem_cons]

theorem allUpward_append {ns ms : List Node} (h : AllUpward ns) (k : AllUpward ms) : AllUpward (ns ++ ms) := by
  rw [allUpward_iff] at *
  intro n hn
  rcases List.mem_append.1 hn with hn | hn
  · exact h n hn
  · exact k n hn

/-- failures below a node show at the node -/
theorem hasFailure_of_upward {n : Node} (h : n.Upward) : n.hasFailure = n.failed := by
  cases n with
  | step head cs =>
    obtain ⟨hbelow, -, -⟩ := h
    simp only [hasFailure, failed]
    cases hcs : anyFailure cs with
    | false => rw [Bool.or_false]
    | true => rw [hbelow hcs, Bool.or_true]
  | action a => rfl
  | message m => rfl

end Node

namespace Recorder

/-- every failure has reached the steps around it, and what carries an exception failed; the open steps stand innermost
first, so each stands inside those that follow it -/
structure Upward (r : Recorder) : Prop where
  roots : Node.AllUpward r.roots
  steps : ∀ s ∈ r.openSteps, s.toNode.Upward
  around : r.openSteps.Pairwise fun inner outer => inner.toNode.hasFailure = true → outer.head.failed = true

/-- an operation as callers use it: steps are opened fresh, and an action with an exception is marked as failed -/
def Op.Proper : Op → Prop
  | .openStep s => s.Fresh
  | .recordAction a => a.exception.isSome = true → a.failed = true
  | _ => True

/-- how many of the open steps are still open behind an operation; the outermost ones are -/
def stillOpen (r : Recorder) : Op → Nat
  | .closeStep _ => r.depth - 1
  | .addStep _ | .finish .. | .takeSteps => 0
  | _ => r.depth

/-- the recorders that a test can reach, with the checkpoints that it can still go back to, the last one first -/
inductive Reached : Recorder → List Checkpoint → Prop where
  | new (maskEnabled : Bool) (now : Timestamp) : Reached (fresh maskEnabled now) []
  /-- an operation closes no step that was open at one of the checkpoints -/
  | op {r : Recorder} {marks : List Checkpoint} (before : Reached r marks) (o : Op) (proper : o.Proper)
      (keeps : ∀ c ∈ marks, c.openStates.length ≤ r.stillOpen o) : Reached (r.apply o) marks
  | wait {r : Recorder} {marks : List Checkpoint} (before : Reached r marks) (time : Timestamp) :
      Reached (r.moveTo time) marks
  | checkpoint {r : Recorder} {marks : List Checkpoint} (before : Reached r marks) : Reached r (r.checkpoint :: marks)
  | rollback {r : Recorder} {c : Checkpoint} {marks : List Checkpoint} (before : Reached r (c :: marks)) :
      Reached (r.rollback c) marks

/-! ## Steps -/

/-- a step that failed is fine when what is below it is -/
theorem upward_of_failed {s t : Step} (h : s.toNode.Upward) (hc : t.children = s.children)
    (hf : t.head.failed = true) : t.toNode.Upward := by
  refine ⟨fun _ => hf, fun _ => hf, ?_⟩
  rw [hc]
  exact h.2.2

/-- only failure marks, exceptions and children matter -/
theorem upward_congr {s t : Step} (hc : t.children = s.children) (hf : t.head.failed = s.head.failed)
    (he : t.head.exception = s.head.exception) (h : s.toNode.Upward) : t.toNode.Upward := by
  unfold Step.toNode Node.Upward at *
  rw [hc, hf, he]
  exact h

theorem hasFailure_congr {s t : Step} (hc : t.children = s.children) (hf : t.head.failed = s.head.failed) :
    t.toNode.hasFailure = s.toNode.hasFailure := by
  unfold Step.toNode Node.hasFailure
  rw [hc, hf]

theorem upward_of_fresh {s : Step} (h : s.Fresh) : s.toNode.Upward := by
  unfold Step.toNode Node.Upward
  rw [h.children, h.exception]
  simp [Node.anyFailure, Node.AllUpward]

theorem hasFailure_of_fresh {s : Step} (h : s.Fresh) : s.toNode.hasFailure = false := by
  unfold Step.toNode Node.hasFailure
  rw [h.children, h.failed]
  rfl

theorem upward_marked (b : Bool) {s : Step} (h : s.toNode.Upward) : (marked b s).toNode.Upward := by
  cases b with
  | false => rwa [marked_false]
  | true => exact upward_of_failed h rfl (Bool.or_true _)

/-- a node that failed may join a step that failed -/
theorem upward_adding {s : Step} {n : Node} (h : s.toNode.Upward) (hn : n.Upward)
    (hf : n.failed = true → s.head.failed = true) : (adding s [n]).toNode.Upward := by
  obtain ⟨hbelow, hexception, hcs⟩ := h
  refine ⟨fun hany => ?_, hexception, Node.allUpward_append hcs ⟨hn, trivial⟩⟩
  change Node.anyFailure (s.children ++ [n]) = true at hany
  rw [Node.anyFailure_append, Bool.or_eq_true] at hany
  rcases hany with hany | hany
  · exact hbelow hany
  · rw [Node.anyFailure, Node.anyFailure, Bool.or_false, Node.hasFailure_of_upward hn] at hany
    exact hf hany

theorem children_fail (s : Step) (e : Option RecordedFailure) : (s.fail e).children = s.children := by rw [fail_eq]

theorem failed_fail (s : Step) (e : Option RecordedFailure) : (s.fail e).head.failed = true := by rw [fail_eq]

theorem upward_fail {s : Step} (h : s.toNode.Upward) (e : Option RecordedFailure) : (s.fail e).toNode.Upward :=
  upward_of_failed h (children_fail s e) (failed_fail s e)

theorem upward_closedStep {s : Step} (h : s.toNode.Upward) (outcome : Option Failure) (now : Timestamp) :
    (closedStep s outcome now).toNode.Upward := by
  cases outcome with
  | none => exact h
  | some f => exact upward_of_failed h (children_fail _ _) (failed_fail _ _)

theorem upward_closedNode {s : Step} (h : s.toNode.Upward) (outer : List Step) : (closedNode s outer).Upward := by
  unfold closedNode
  split
  · exact h.2.1
  · exact h

theorem failed_closedNode (s : Step) (outer : List Step) : (closedNode s outer).failed = s.head.failed := by
  unfold closedNode
  split
  · rfl
  · rfl

/-! ## Operations -/

theorem fresh_upward (maskEnabled : Bool) (now : Timestamp) : Upward (fresh maskEnabled now) :=
  ⟨trivial, fun _ hs => absurd hs List.not_mem_nil, .nil⟩

/-- marks on all open steps, or on none -/
theorem Upward.mark {r : Recorder} (h : Upward r) (b : Bool) :
    Upward { r with openSteps := r.openSteps.map (marked b) } := by
  cases b with
  | false =>
    rw [marked_false, List.map_id]
    exact h
  | true =>
    refine ⟨h.roots, fun s hs => ?_, ?_⟩
    · obtain ⟨x, hx, rfl⟩ := List.mem_map.1 hs
      exact upward_marked true (h.steps x hx)
    · exact List.pairwise_map.2 (h.around.imp fun _ _ => Bool.or_true _)

/-- a node joins the record; when it failed, the open steps did, too -/
theorem Upward.attach {r : Recorder} (h : Upward r) {n : Node} (hn : n.Upward)
    (hf : n.failed = true → ∀ s ∈ r.openSteps, s.head.failed = true) : Upward (r.attach n) := by
  cases ho : r.openSteps with
  | nil =>
    rw [attach_nil r ho]
    exact ⟨Node.allUpward_append h.roots ⟨hn, trivial⟩, h.steps, h.around⟩
  | cons x outer =>
    obtain ⟨hroots, hsteps, haround⟩ := h
    rw [ho] at hsteps haround hf
    have hx : (adding x [n]).toNode.Upward :=
      upward_adding (hsteps x List.mem_cons_self) hn fun hfailed => hf hfailed x List.mem_cons_self
    rw [attach_cons r x outer ho]
    refine ⟨hroots, ?_, ?_⟩
    · intro s hs
      rcases List.mem_cons.1 hs with rfl | hs
      · exact hx
      · exact hsteps s (List.mem_cons_of_mem x hs)
    · refine List.pairwise_cons.2 ⟨fun s hs hfailure => ?_, haround.of_cons⟩
      -- what failed in the step was there before, or has just joined it
      rw [Node.hasFailure_of_upward hx] at hfailure
      refine (List.pairwise_cons.1 haround).1 s hs ?_
      rw [Node.hasFailure_of_upward (hsteps x List.mem_cons_self)]
      exact hfailure

theorem Upward.openStep {r : Recorder} (h : Upward r) {x : Step} (hx : x.Fresh) : Upward (r.openStep x) := by
  rw [openStep_eq]
  refine ⟨h.roots, ?_, List.pairwise_cons.2 ⟨fun s _ hfailure => ?_, h.around⟩⟩
  · intro s hs
    rcases List.mem_cons.1 hs with rfl | hs
    · exact upward_congr (s := x) rfl rfl rfl (upward_of_fresh hx)
    · exact h.steps s hs
  · rw [hasFailure_congr (s := x) (t := opened r x) rfl rfl, hasFailure_of_fresh hx] at hfailure
    cases hfailure

theorem Upward.closeStep {r : Recorder} (h : Upward r) (outcome : Option Failure) : Upward (r.closeStep outcome) := by
  cases ho : r.openSteps with
  | nil =>
    rw [closeStep_nil r ho]
    exact h
  | cons x outer =>
    obtain ⟨hroots, hsteps, haround⟩ := h
    rw [ho] at hsteps haround
    have hx := upward_closedStep (hsteps x List.mem_cons_self) outcome r.now
    have houter : Upward { r with openSteps := outer } :=
      ⟨hroots, fun s hs => hsteps s (List.mem_cons_of_mem x hs), haround.of_cons⟩
    rw [closeStep_cons r x outer ho]
    refine (houter.mark _).attach (upward_closedNode hx outer) fun hfailed s hs => ?_
    rw [failed_closedNode] at hfailed
    obtain ⟨y, -, rfl⟩ := List.mem_map.1 hs
    rw [hfailed]
    exact Bool.or_true _

theorem Upward.closeAll {r : Recorder} (h : Upward r) : Upward r.closeAll :=
  closeAll_keeps (fun _ hr => hr.closeStep none) h

theorem Upward.recordAction {r : Recorder} (h : Upward r) {a : Action}
    (ha : a.exception.isSome = true → a.failed = true) : Upward (r.recordAction a) := by
  rw [recordAction_eq]
  refine (h.mark a.failed).attach ha fun hfailed s hs => ?_
  obtain ⟨y, -, rfl⟩ := List.mem_map.1 hs
  rw [show a.failed = true from hfailed]
  exact Bool.or_true _

theorem Upward.recordMessage {r : Recorder} (h : Upward r) (text : String) (level : Level) :
    Upward (r.recordMessage text level) := h.attach trivial fun hfailed => by cases hfailed

theorem Upward.failCurrent {r : Recorder} (h : Upward r) (failure : Option Failure) :
    Upward (r.failCurrent failure) := by
  unfold Recorder.failCurrent
  split
  · exact h
  · rename_i x outer ho
    obtain ⟨hroots, hsteps, -⟩ := h
    rw [ho] at hsteps
    refine ⟨hroots, fun s hs => ?_, ?_⟩
    · obtain ⟨y, hy, rfl⟩ := List.mem_map.1 hs
      refine upward_of_failed (s := y) ?_ rfl rfl
      rcases List.mem_cons.1 hy with rfl | hy
      · exact upward_fail (hsteps x List.mem_cons_self) _
      · exact hsteps y (List.mem_cons_of_mem x hy)
    · -- every open step is marked
      exact List.pairwise_map.2 (List.pairwise_of_forall fun _ _ _ => rfl)

theorem Upward.addStep {r : Recorder} (h : Upward r) (name : String) : Upward (r.addStep name) :=
  h.closeAll.openStep (Step.fresh_new name name r.closeAll.now)

theorem Upward.addSecret {r : Recorder} (h : Upward r) (value : String) : Upward (r.addSecret value) := by
  rw [addSecret_eq]
  split
  · refine ⟨h.roots, ?_, ?_⟩
    · simp only
      split
      · intro s hs
        obtain ⟨x, hx, rfl⟩ := List.mem_map.1 hs
        exact h.steps x hx
      · exact h.steps
    · simp only
      split
      · exact List.pairwise_map.2 h.around
      · exact h.around
  · exact h

theorem Upward.attachFile {r : Recorder} (h : Upward r) (a : Attachment) : Upward (r.attachFile a) := by
  rcases attachFile_cases r a with ⟨x, outer, ho, hfile⟩ | ⟨before, s, after, hr, hfile⟩ | hfile
  · obtain ⟨hroots, hsteps, haround⟩ := h
    rw [ho] at hsteps haround
    rw [hfile]
    refine ⟨hroots, fun s hs => ?_, List.pairwise_cons.2 (List.pairwise_cons.1 haround)⟩
    rcases List.mem_cons.1 hs with rfl | hs
    · exact hsteps x List.mem_cons_self
    · exact hsteps s (List.mem_cons_of_mem x hs)
  · obtain ⟨hroots, hsteps, haround⟩ := h
    rw [hr, Node.allUpward_iff] at hroots
    rw [hfile]
    refine ⟨Node.allUpward_iff.2 fun n hn => ?_, hsteps, haround⟩
    simp only [List.mem_append, List.mem_cons] at hn hroots
    rcases hn with hn | rfl | hn
    · exact hroots n (Or.inl hn)
    · exact hroots s.toNode (Or.inr (Or.inl rfl))
    · exact hroots n (Or.inr (Or.inr hn))
  · rw [hfile]
    exact h

theorem Upward.finish {r : Recorder} (h : Upward r) (failure : Option Failure) (screenshot : Option Attachment) :
    Upward (r.finish failure screenshot) := by
  obtain ⟨hroots, hsteps, haround⟩ := h.closeAll
  refine ⟨Node.allUpward_append hroots ⟨⟨?_, ?_, trivial, trivial⟩, trivial⟩, hsteps, haround⟩
  · intro hmessage
    cases hmessage
  · intro hexception
    cases hexception

theorem Upward.takeSteps {r : Recorder} (h : Upward r) : Upward r.takeSteps.2 := by
  obtain ⟨-, hsteps, haround⟩ := h.closeAll
  exact ⟨trivial, hsteps, haround⟩

theorem Upward.apply {r : Recorder} (h : Upward r) {o : Op} (ho : o.Proper) : Upward (r.apply o) := by
  cases o with
  | openStep s => exact h.openStep ho
  | closeStep outcome => exact h.closeStep outcome
  | recordAction a => exact h.recordAction ho
  | recordMessage text level => exact h.recordMessage text level
  | attachFile a => exact h.attachFile a
  | failCurrent failure => exact h.failCurrent failure
  | addStep name => exact h.addStep name
  | addSecret value => exact h.addSecret value
  | finish failure screenshot => exact h.finish failure screenshot
  | takeSteps => exact h.takeSteps

theorem Upward.moveTo {r : Recorder} (h : Upward r) (time : Timestamp) : Upward (r.moveTo time) :=
  ⟨h.roots, h.steps, h.around⟩

/-! ## Going back -/

/-- each checkpoint belongs to a recorder that is `Upward` and has only been extended since; or none of them had a step
open -/
inductive Pending : Recorder → List Checkpoint → Prop where
  | shallow {r : Recorder} {marks : List Checkpoint} (h : ∀ c ∈ marks, c.openStates = []) : Pending r marks
  | extended {s r : Recorder} {marks : List Checkpoint} (since : Extends s r) (upward : Upward s)
      (before : Pending s marks) : Pending r (s.checkpoint :: marks)

theorem length_openStates (r : Recorder) : r.checkpoint.openStates.length = r.depth := by
  simp [checkpoint, depth]

theorem checkpoint_attachFile (r : Recorder) (a : Attachment) : (r.attachFile a).checkpoint = r.checkpoint := by
  rcases attachFile_cases r a with ⟨x, outer, ho, hfile⟩ | ⟨before, s, after, hr, hfile⟩ | hfile
  · rw [hfile]
    unfold checkpoint
    simp [ho, filed, noteStep]
  · rw [hfile]
    unfold checkpoint
    simp only [hr, List.length_append, List.length_cons]
  · rw [hfile]

variable {r : Recorder} {marks : List Checkpoint}

/-- what was open at a checkpoint is still open -/
theorem Pending.depth_le (h : Pending r marks) : ∀ c ∈ marks, c.openStates.length ≤ r.depth := by
  induction h with
  | shallow h =>
    intro c hc
    rw [h c hc]
    exact Nat.zero_le _
  | extended since _ _ ih =>
    have hdepth := since.stack.length_le
    intro c hc
    rcases List.mem_cons.1 hc with rfl | hc
    · rw [length_openStates]
      exact hdepth
    · exact (ih c hc).trans hdepth

theorem pending_of_shallow (h : ∀ c ∈ marks, c.openStates.length ≤ 0) : Pending r marks :=
  .shallow fun c hc => List.eq_nil_of_length_eq_zero (Nat.le_zero.1 (h c hc))

theorem Pending.extend (h : Pending r marks) {t : Recorder} (k : Extends r t) : Pending t marks := by
  cases h with
  | shallow h => exact .shallow h
  | extended since upward before => exact .extended (since.trans k) upward before

/-- a change that goes through to the recorders of the checkpoints -/
theorem Pending.map {f : Recorder → Recorder} (hf : ∀ {s r}, Extends s r → Extends (f s) (f r))
    (hup : ∀ {s}, Upward s → Upward (f s)) (hc : ∀ s, (f s).checkpoint = s.checkpoint) (h : Pending r marks) :
    Pending (f r) marks := by
  induction h with
  | shallow h => exact .shallow h
  | @extended s r marks since upward before ih =>
    rw [← hc s]
    exact .extended (hf since) (hup upward) ih

theorem Pending.closeStep (h : Pending r marks) (keeps : ∀ c ∈ marks, c.openStates.length ≤ r.depth - 1)
    (outcome : Option Failure) : Pending (r.closeStep outcome) marks := by
  cases h with
  | shallow h => exact .shallow h
  | @extended s r marks since upward before =>
    have hs := keeps s.checkpoint List.mem_cons_self
    rw [length_openStates] at hs
    rcases Nat.lt_or_ge s.depth r.depth with hlt | hge
    · exact .extended (since.closeStep hlt outcome) upward before
    · -- nothing is open
      have ho : r.openSteps = [] := List.eq_nil_of_length_eq_zero (show r.depth = 0 by omega)
      rw [closeStep_nil r ho]
      exact .extended since upward before

theorem Pending.attachFile (h : Pending r marks) (a : Attachment) : Pending (r.attachFile a) marks := by
  induction h with
  | shallow h => exact .shallow h
  | @extended s r marks since upward before ih =>
    by_cases ho : r.openSteps = []
    · have hdepth : r.depth = 0 := by
        rw [depth, ho]
        rfl
      have hshallow := (Pending.extended since upward before).depth_le
      rw [hdepth] at hshallow
      exact pending_of_shallow hshallow
    · rcases since.attachFile ho a with hext | hext
      · exact .extended hext upward before
      · rw [← checkpoint_attachFile s a]
        exact .extended hext (upward.attachFile a) ih

theorem Pending.apply (h : Pending r marks) (o : Op) (keeps : ∀ c ∈ marks, c.openStates.length ≤ r.stillOpen o) :
    Pending (r.apply o) marks := by
  have hsame := Extends.refl r
  cases o with
  | openStep s => exact h.extend (hsame.openStep s)
  | closeStep outcome => exact h.closeStep keeps outcome
  | recordAction a => exact h.extend (hsame.recordAction a)
  | recordMessage text level => exact h.extend (hsame.recordMessage text level)
  | attachFile a => exact h.attachFile a
  | failCurrent failure => exact h.extend (hsame.failCurrent failure)
  | addStep name => exact pending_of_shallow keeps
  | addSecret value =>
    exact h.map (fun k => k.addSecret value) (fun k => k.addSecret value)
      fun s => (renamed_addSecret s value).checkpoint_eq
  | finish failure screenshot => exact pending_of_shallow keeps
  | takeSteps => exact pending_of_shallow keeps

theorem Pending.rollback {c : Checkpoint} (h : Pending r (c :: marks)) (hr : Upward r) :
    Upward (r.rollback c) ∧ Pending (r.rollback c) marks := by
  cases h with
  | shallow h =>
    have hnone : (r.rollback c).openSteps = [] := by
      unfold Recorder.rollback
      rw [h c List.mem_cons_self, List.zipWith_nil_right]
      rfl
    have hroots : Node.AllUpward (r.rollback c).roots :=
      Node.allUpward_iff.2 fun n hn => Node.allUpward_iff.1 hr.roots n (List.mem_of_mem_take hn)
    refine ⟨⟨hroots, ?_, ?_⟩, .shallow fun c hc => h c (List.mem_cons_of_mem _ hc)⟩
    · rw [hnone]
      exact fun s hs => absurd hs List.not_mem_nil
    · rw [hnone]
      exact .nil
  | extended since upward before =>
    rw [since.rollback_eq]
    exact ⟨upward, before⟩

/-- **Failures go upward.** In every recorder that a test can reach, every step counts as failed that has something failed
in it or below it, closed or still open; and what carries an exception counts as failed itself. -/
theorem failures_go_upward (h : Reached r marks) : Upward r := by
  have hboth : Upward r ∧ Pending r marks := by
    induction h with
    | new maskEnabled now => exact ⟨fresh_upward maskEnabled now, .shallow fun c hc => absurd hc List.not_mem_nil⟩
    | op before o proper keeps ih => exact ⟨ih.1.apply proper, ih.2.apply o keeps⟩
    | wait before time ih =>
      exact ⟨ih.1.moveTo time, ih.2.map (fun k => k.moveTo time) (fun k => k.moveTo time) fun _ => rfl⟩
    | checkpoint before ih => exact ⟨ih.1, .extended (Extends.refl _) ih.1 ih.2⟩
    | rollback before ih => exact ih.2.rollback ih.1
  exact hboth.1

/-- a click in a step inside an open one that fails -/
def failedClick : Action := { name := "click", actionId := "click", failed := true, timestamp := noon }

/-- a failed attempt has been rolled back, and the click has failed once more -/
def secondAttempt : Recorder :=
  let opened := (fresh true noon).apply (.openStep (.new "pay" "pay" noon))
  let attempt := (opened.apply (.openStep (.new "confirm" "confirm" noon))).apply (.recordAction failedClick)
  ((attempt.apply (.closeStep none)).rollback opened.checkpoint).apply (.recordAction failedClick)

theorem upward_on_second_attempt : Reached secondAttempt [] ∧ Upward secondAttempt := by
  have hfirst : Reached ((fresh true noon).apply (.openStep (.new "pay" "pay" noon))) [] :=
    .op (.new true noon) _ (Step.fresh_new _ _ _) (by decide)
  have hconfirm := Reached.op hfirst.checkpoint (.openStep (.new "confirm" "confirm" noon)) (Step.fresh_new _ _ _)
    (by decide)
  have hclick := hconfirm.op (.recordAction failedClick) (fun _ => rfl) (by decide)
  have hback := (hclick.op (.closeStep none) trivial (by decide)).rollback
  have hsecond : Reached secondAttempt [] := hback.op (.recordAction failedClick) (fun _ => rfl) (by decide)
  exact ⟨hsecond, failures_go_upward hsecond⟩

end Recorder

end TestTrail
