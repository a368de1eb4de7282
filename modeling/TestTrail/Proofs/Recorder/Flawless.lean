/-
Records without a flaw: nothing in them failed, and the root steps are numbered without a gap.

`Good` is the invariant of a record whose every call has succeeded. What is recorded of successes keeps it, and so does
ending the test: `finish_good` reads off the forest. `Gap` is its opposite: a number was given, and no root step has it
any more. No later operation fills a gap (`Gap.later`), so it shows in the finished forest (`finish_gap`).

`judged_rollback` is where the two part: a rollback from a good record gives back a good one when the root step that
was open is still open, and leaves a gap when it is not.
-/
import TestTrail.Proofs.Recorder.Numbering

namespace TestTrail

namespace Node

mutual

/-- nothing in the node failed or carries an exception -/
def flawless : Node → Bool
  | step h cs => !h.failed && h.exception.isNone && allFlawless cs
  | action a => !a.failed && a.exception.isNone
  | message _ => true

def allFlawless : List Node → Bool
  | [] => true
  | n :: ns => n.flawless && allFlawless ns

end

theorem allFlawless_append (ns ms : List Node) : allFlawless (ns ++ ms) = (allFlawless ns && allFlawless ms) := by
  induction ns with
  | nil => rfl
  | cons n ns ih => rw [List.cons_append, allFlawless, allFlawless, ih, Bool.and_assoc]

end Node

/-- nothing in an open step failed -/
def Step.flawless (s : Step) : Bool := s.toNode.flawless

namespace Recorder

structure Good (r : Recorder) : Prop where
  roots : Node.allFlawless r.roots = true
  steps : ∀ x ∈ r.openSteps, x.flawless = true
  numbers : numbers r = (List.range r.rootPositions).map some

theorem fresh_good (maskEnabled : Bool) (now : Timestamp) : Good (fresh maskEnabled now) :=
  ⟨rfl, fun _ hx => absurd hx List.not_mem_nil, rfl⟩

/-! ## Steps -/

theorem flawless_adding {x : Step} {n : Node} (hx : x.flawless = true) (hn : n.flawless = true) :
    (adding x [n]).flawless = true := by
  simp only [Step.flawless, Step.toNode, adding, Node.flawless, Node.allFlawless_append, Bool.and_eq_true] at *
  simp only [Node.allFlawless, hn, Bool.and_true, and_true]
  exact hx

theorem failed_of_flawless {x : Step} (hx : x.flawless = true) : x.head.failed = false := by
  simp only [Step.flawless, Step.toNode, Node.flawless, Bool.and_eq_true, Bool.not_eq_true'] at hx
  exact hx.1.1

theorem flawless_of_sameButName {x y : Step} (h : SameButName x y) (hx : x.flawless = true) : y.flawless = true := by
  rw [h]
  exact hx

theorem flawless_of_renamed {xs ys : List Step} (h : List.Forall₂ SameButName xs ys)
    (hxs : ∀ x ∈ xs, x.flawless = true) : ∀ y ∈ ys, y.flawless = true := by
  induction h with
  | nil => exact hxs
  | cons hab _ ih =>
    intro y hy
    rcases List.mem_cons.1 hy with rfl | hy
    · exact flawless_of_sameButName hab (hxs _ List.mem_cons_self)
    · exact ih (fun x hx => hxs x (List.mem_cons_of_mem _ hx)) y hy

theorem flawless_of_fresh {x : Step} (h : x.Fresh) : x.flawless = true := by
  simp [Step.flawless, Step.toNode, Node.flawless, h.children, h.failed, h.exception, Node.allFlawless]

theorem flawless_closedStep {x : Step} (hx : x.flawless = true) (now : Timestamp) :
    (closedStep x none now).flawless = true := hx

theorem flawless_closedNode {x : Step} (hx : x.flawless = true) (outer : List Step) :
    (closedNode x outer).flawless = true := by
  unfold closedNode
  split
  · simp only [Step.flawless, Step.toNode, Node.flawless, Bool.and_eq_true] at hx
    simp only [Step.toAction, Node.flawless, Bool.and_eq_true]
    exact hx.1
  · exact hx

/-! ## Recording -/

/-- a node that is no step joins the record -/
theorem Good.attach {r : Recorder} (h : Good r) {n : Node} (hn : n.flawless = true) (hstep : n.toStep? = none) :
    Good (r.attach n) := by
  refine ⟨?_, ?_, ?_⟩
  · cases ho : r.openSteps with
    | nil =>
      rw [attach_nil r ho, Node.allFlawless_append, h.roots]
      simp only [Node.allFlawless, hn, Bool.and_self]
    | cons x outer =>
      rw [attach_cons r x outer ho]
      exact h.roots
  · intro y hy
    cases ho : r.openSteps with
    | nil =>
      rw [openSteps_attach_nil r n ho] at hy
      cases hy
    | cons x outer =>
      rw [attach_cons r x outer ho] at hy
      rcases List.mem_cons.1 hy with rfl | hy
      · exact flawless_adding (h.steps x (by rw [ho]; exact List.mem_cons_self)) hn
      · exact h.steps y (by rw [ho]; exact List.mem_cons_of_mem x hy)
  · exact Unbroken.attach h.numbers fun _ => hstep

theorem Good.recordMessage {r : Recorder} (h : Good r) (text : String) (level : Level) :
    Good (r.recordMessage text level) := h.attach rfl rfl

theorem Good.recordAction {r : Recorder} (h : Good r) {a : Action} (hf : a.failed = false) (he : a.exception = none) :
    Good (r.recordAction a) := by
  rw [recordAction_eq, hf, marked_false, List.map_id]
  refine h.attach ?_ rfl
  simp only [Node.flawless, he, Bool.not_false, Option.isNone_none, Bool.and_self]

theorem Renamed.good {s r : Recorder} (h : Renamed s r) (hs : Good s) : Good r := by
  refine ⟨?_, fun y hy => ?_, ?_⟩
  · rw [h.roots]
    exact hs.roots
  · exact flawless_of_renamed h.stack hs.steps y hy
  · exact Unbroken.congr hs.numbers (by rw [h.roots]) (map_eq_of_forall₂ h.stack position_of_sameButName) h.numbers

theorem Good.openStep {r : Recorder} (h : Good r) {x : Step} (hx : x.Fresh) : Good (r.openStep x) := by
  have hflawless := flawless_of_fresh hx
  refine ⟨?_, ?_, ?_⟩
  · rw [roots_openStep]
    exact h.roots
  · intro y hy
    have hy' : y.flawless = true ∨ y ∈ r.openSteps := by
      unfold Recorder.openStep at hy
      split at hy
      · rw [List.mem_singleton.1 hy]
        exact Or.inl hflawless
      · rcases List.mem_cons.1 hy with rfl | hy
        · exact Or.inl hflawless
        · exact Or.inr hy
    rcases hy' with hy | hy
    · exact hy
    · exact h.steps y hy
  · exact Unbroken.openStep h.numbers x

theorem Good.closeStep {r : Recorder} (h : Good r) : Good (r.closeStep none) := by
  have hnumbers : Unbroken (r.closeStep none) := Unbroken.closeStep h.numbers none
  cases ho : r.openSteps with
  | nil => rw [closeStep_nil r ho]; exact h
  | cons x outer =>
    have hx : x.flawless = true := h.steps x (by rw [ho]; exact List.mem_cons_self)
    have hclosed := flawless_closedStep hx r.now
    have houter : ∀ y ∈ outer, y.flawless = true := fun y hy => h.steps y (by rw [ho]; exact List.mem_cons_of_mem x hy)
    have hnode := flawless_closedNode hclosed outer
    rw [closeStep_cons r x outer ho, failed_of_flawless hclosed, marked_false, List.map_id] at hnumbers ⊢
    cases outer with
    | nil =>
      rw [attach_nil _ rfl] at hnumbers ⊢
      refine ⟨?_, fun y hy => absurd hy List.not_mem_nil, hnumbers⟩
      rw [Node.allFlawless_append, h.roots]
      simp only [Node.allFlawless, hnode, Bool.and_self]
    | cons y outer =>
      rw [attach_cons _ _ _ rfl] at hnumbers ⊢
      refine ⟨h.roots, fun z hz => ?_, hnumbers⟩
      rcases List.mem_cons.1 hz with rfl | hz
      · exact flawless_adding (houter y List.mem_cons_self) hnode
      · exact houter z (List.mem_cons_of_mem y hz)

theorem Good.closeAll {r : Recorder} (h : Good r) : Good r.closeAll := closeAll_keeps (fun _ hr => hr.closeStep) h

theorem Good.addStep {r : Recorder} (h : Good r) (name : String) : Good (r.addStep name) :=
  h.closeAll.openStep (Step.fresh_new name name r.closeAll.now)

/-! ## Gaps -/

/-- a number that was given belongs to no root step -/
def Gap (r : Recorder) : Prop := ∃ n < r.rootPositions, some n ∉ Node.positions r.roots ∧ rootNumber r ≠ some n

theorem Later.gap {s r : Recorder} (h : Later s r) (hs : Gap s) : Gap r := by
  obtain ⟨n, hn, hclosed, hroot⟩ := hs
  refine ⟨n, lt_of_lt_of_le hn h.numbers, fun hr => ?_, fun hr => ?_⟩
  · rcases h.closed n hr with hr | hr | hr
    · exact hclosed hr
    · exact hroot hr
    · exact absurd (lt_of_lt_of_le hn hr) (lt_irrefl n)
  · rcases h.root n hr with hr | hr
    · exact hroot hr
    · exact absurd (lt_of_lt_of_le hn hr) (lt_irrefl n)

/-- the outermost open step has the last number, and the closed ones have those before it -/
theorem Good.last {r : Recorder} (h : Good r) (ho : r.openSteps ≠ []) :
    ∃ n, r.rootPositions = n + 1 ∧ rootNumber r = some n ∧ Node.positions r.roots = (List.range n).map some := by
  have hnumbers := h.numbers
  have hne : stackNumbers r ≠ [] := mt List.map_eq_nil_iff.1 ho
  unfold Recorder.numbers at hnumbers
  rw [List.getLast?_eq_some_getLast hne, Option.toList_some] at hnumbers
  cases hp : r.rootPositions with
  | zero =>
    rw [hp] at hnumbers
    exact absurd hnumbers (List.append_ne_nil_of_right_ne_nil _ (List.cons_ne_nil _ _))
  | succ n =>
    rw [hp, List.range_succ, List.map_append] at hnumbers
    obtain ⟨hclosed, hlast⟩ := List.append_inj' hnumbers rfl
    refine ⟨n, rfl, ?_, hclosed⟩
    rw [rootNumber_eq, List.getLast?_eq_some_getLast hne, List.singleton_inj.1 hlast]
    rfl

/-! ## Discarded attempts -/

/-- an attempt that was rolled back: the record before it and after it -/
structure Discard where
  before : Recorder
  after : Recorder

/-- the root step that was open before the attempt is still open after it, if there was one -/
def Discard.keepsRoot (d : Discard) : Bool :=
  d.before.openSteps.isEmpty || rootNumber d.after == rootNumber d.before

/-- a record after some attempts were discarded: it is good if all kept their root step, else it has a gap -/
structure Judged (ds : List Discard) (r : Recorder) : Prop where
  good : (∀ d ∈ ds, d.keepsRoot = true) → Good r
  gap : (∃ d ∈ ds, d.keepsRoot = false) → Gap r

theorem judged_nil {r : Recorder} (h : Good r) : Judged [] r :=
  ⟨fun _ => h, fun ⟨_, hd, _⟩ => absurd hd List.not_mem_nil⟩

/-- after a good record comes what `h` says, and a gap stays -/
theorem Judged.append {ds more : List Discard} {s r : Recorder} (hs : Judged ds s) (hlater : Later s r)
    (h : Good s → Judged more r) : Judged (ds ++ more) r := by
  refine ⟨fun hall => ?_, fun ⟨d, hd, hroot⟩ => ?_⟩
  · have hgood := hs.good fun d hd => hall d (List.mem_append_left _ hd)
    exact (h hgood).good fun d hd => hall d (List.mem_append_right _ hd)
  · by_cases hall : ∀ d ∈ ds, d.keepsRoot = true
    · rcases List.mem_append.1 hd with hd | hd
      · exact absurd (hall d hd) (by rw [hroot]; exact Bool.false_ne_true)
      · exact (h (hs.good hall)).gap ⟨d, hd, hroot⟩
    · have hgap := hs.gap (by
        by_contra hnone
        refine hall fun d hd => ?_
        by_contra hne
        exact hnone ⟨d, hd, Bool.eq_false_of_not_eq_true hne⟩)
      exact hlater.gap hgap

/-- a step of a run that keeps good records good -/
theorem Judged.map {ds : List Discard} {s r : Recorder} (hs : Judged ds s) (hlater : Later s r) (h : Good s → Good r) :
    Judged ds r := ⟨fun hall => h (hs.good hall), fun hone => hlater.gap (hs.gap hone)⟩

/-- **A rollback is exact if the root step is still open, and loses the root step if it is not.** -/
theorem judged_rollback {s t : Recorder} (hs : Good s) (h : Trace s t) : Judged [⟨s, t⟩] (t.rollback s.checkpoint) := by
  constructor
  · intro hall
    have hkeeps := hall ⟨s, t⟩ List.mem_cons_self
    simp only [Discard.keepsRoot, Bool.or_eq_true, List.isEmpty_iff, beq_iff_eq] at hkeeps
    have hcont : Continues s t := by
      by_cases ho : s.openSteps = []
      · exact h.continues_of_nil ho
      · obtain ⟨n, hn, hroot, _⟩ := hs.last ho
        have ht : rootNumber t = some n := (hkeeps.resolve_left ho).trans hroot
        exact h.kept n (by rw [hn]; exact Nat.lt_succ_self n) hroot ht
    exact hcont.rollback.good hs
  · rintro ⟨d, hd, hfalse⟩
    rw [List.mem_singleton.1 hd] at hfalse
    simp only [Discard.keepsRoot, Bool.or_eq_false_iff, List.isEmpty_eq_false_iff, beq_eq_false_iff_ne] at hfalse
    obtain ⟨n, hn, hroot, hclosed⟩ := hs.last hfalse.1
    have hlt : n < (t.rollback s.checkpoint).rootPositions := by
      show n < s.rootPositions
      rw [hn]
      exact Nat.lt_succ_self n
    refine ⟨n, hlt, fun hmem => ?_, fun hr => ?_⟩
    · rw [h.roots_rollback, hclosed] at hmem
      simp at hmem
    · exact hfalse.2 ((rootNumber_rollback t _ hr).trans hroot.symm)

/-! ## The finished forest -/

theorem takeSteps_finish (r : Recorder) (failure : Option Failure) (screenshot : Option Attachment) :
    ((r.finish failure screenshot).takeSteps).1 = (r.finish failure screenshot).roots := by
  have hnone : (r.finish failure screenshot).openSteps = [] := openSteps_closeAll r
  unfold takeSteps closeAll
  rw [hnone]
  rfl

/-- the closing step of a test that passed -/
theorem roots_finish (r : Recorder) (screenshot : Option Attachment) :
    ∃ head message, (r.finish none screenshot).roots = r.closeAll.roots ++ [.step head [.message message]] ∧
      head.failed = false ∧ head.exception = none ∧ head.position = some r.rootPositions :=
  ⟨_, _, rfl, rfl, rfl, congrArg some (shuts_closeAll r).numbers⟩

theorem finish_good {r : Recorder} (h : Good r) (screenshot : Option Attachment) :
    Node.allFlawless (r.finish none screenshot).roots = true ∧
      ∃ n, Node.positions (r.finish none screenshot).roots = (List.range n).map some := by
  obtain ⟨head, message, hroots, hf, he, -⟩ := roots_finish r screenshot
  refine ⟨?_, r.closeAll.rootPositions + 1, ?_⟩
  · rw [hroots, Node.allFlawless_append, h.closeAll.roots]
    simp [Node.allFlawless, Node.flawless, hf, he]
  · have hnumbers : Unbroken (r.finish none screenshot) := Unbroken.finish h.numbers none screenshot
    have hnone : stackNumbers (r.finish none screenshot) = [] := by
      rw [stackNumbers, show (r.finish none screenshot).openSteps = [] from openSteps_closeAll r]
      rfl
    unfold Unbroken numbers at hnumbers
    rw [hnone, List.getLast?_nil, Option.toList_none, List.append_nil] at hnumbers
    exact hnumbers

theorem finish_gap {r : Recorder} (h : Gap r) (screenshot : Option Attachment) :
    ¬ ∃ n, Node.positions (r.finish none screenshot).roots = (List.range n).map some := by
  obtain ⟨head, message, hroots, _, _, hp⟩ := roots_finish r screenshot
  obtain ⟨g, hg, hclosed, hroot⟩ := h
  rintro ⟨n, hn⟩
  rw [hroots, positions_append] at hn
  have hlast : some r.rootPositions ∈ (List.range n).map some := by
    rw [← hn]
    exact List.mem_append_right _ (by rw [← hp]; exact List.mem_singleton_self _)
  have hlt : r.rootPositions < n := by simpa using hlast
  have hmem : some g ∈ (List.range n).map some := by simpa using lt_trans hg hlt
  rw [← hn] at hmem
  rcases List.mem_append.1 hmem with hmem | hmem
  · rcases (shuts_closeAll r).closed g hmem with hmem | hmem
    · exact hclosed hmem
    · exact hroot hmem
  · have heq : some g = head.position := List.mem_singleton.1 hmem
    rw [hp] at heq
    cases heq
    exact absurd hg (lt_irrefl _)

end Recorder

end TestTrail
