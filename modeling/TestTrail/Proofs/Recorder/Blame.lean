/-
Where a failed test puts its failure.

The failure of a test is shown at one place. Its exception is on one node, and failed are this node, the steps around
it, and, when the node is the step of a batch, the actions of the batch, which failed as one. Who it is that the node
stands for, and which actions failed with it, is a `Culprit`; it is told from the run and not from the forest, since a
step does not show what it stands for. `Node.Blames` says all this of a tree by recursion on the place, `Blames.marks`
reads it off node by node.

`Blamed` is what it comes to while steps are open. A record without a flaw is blamed for nothing; from the moment when
something fails, the innermost open step has the place in it, or is it, and the steps around it are marked. Messages
and the closing of steps keep that, and so does the end of the test.
-/
import TestTrail.Proofs.Recorder.Flawless
import TestTrail.Proofs.Recorder.Gaining

namespace TestTrail

/-! ## Places -/

namespace Node

theorem allFlawless_iff (ns : List Node) : allFlawless ns = true ↔ ∀ n ∈ ns, n.flawless = true := by
  induction ns with
  | nil => simp [allFlawless]
  | cons n ns ih => simp [allFlawless, ih]

theorem flawless_child {n m : Node} (h : n.flawless = true) (hm : m ∈ n.children) : m.flawless = true := by
  cases n with
  | step k cs =>
    simp only [flawless, Bool.and_eq_true] at h
    exact (allFlawless_iff cs).1 h.2 m hm
  | action a => cases hm
  | message o => cases hm

/-- a node at or below one without a flaw -/
theorem flawless_below {n m : Node} (h : n.flawless = true) {place : List Nat} (hm : n.below? place = some m) :
    m.failed = false ∧ m.exception = none := by
  induction place generalizing n with
  | nil =>
    obtain rfl : n = m := Option.some.inj hm
    cases n with
    | step k cs =>
      simp only [flawless, Bool.and_eq_true, Bool.not_eq_true', Option.isNone_iff_eq_none] at h
      exact h.1
    | action a =>
      simp only [flawless, Bool.and_eq_true, Bool.not_eq_true', Option.isNone_iff_eq_none] at h
      exact h
    | message o => exact ⟨rfl, rfl⟩
  | cons i place ih =>
    obtain ⟨child, hchild, hbelow⟩ := Option.bind_eq_some_iff.1 hm
    exact ih (flawless_child h (List.mem_of_getElem? hchild)) hbelow

mutual

theorem hasException_of_flawless {n : Node} (h : n.flawless = true) : n.hasException = false := by
  cases n with
  | step k cs =>
    simp only [flawless, Bool.and_eq_true, Option.isNone_iff_eq_none] at h
    simp [hasException, h.1.2, anyException_of_flawless h.2]
  | action a =>
    simp only [flawless, Bool.and_eq_true, Option.isNone_iff_eq_none] at h
    simp [hasException, h.2]
  | message m => rfl

theorem anyException_of_flawless {ns : List Node} (h : allFlawless ns = true) : anyException ns = false := by
  cases ns with
  | nil => rfl
  | cons n ns =>
    simp only [allFlawless, Bool.and_eq_true] at h
    simp [anyException, hasException_of_flawless h.1, anyException_of_flawless h.2]

end

end Node

/-! ## Blame -/

/-- who a failure is put on: what its node was recorded for, and the actions, each with its id and its element, that
failed with it -/
structure Culprit where
  id : String
  origin : Option String := none
  parts : List (String × Option Element) := []
  deriving DecidableEq

/-- an action that failed together with others -/
def FailedPart (origin : Option String) (part : String × Option Element) (n : Node) : Prop :=
  ∃ a, n = .action a ∧ a.actionId = part.1 ∧ a.element = part.2 ∧ a.origin = origin ∧ a.failed = true ∧
    a.exception = none

/-- the node of a culprit: an action, or a step that begins with the actions that failed with it -/
inductive Culprit.Shown (c : Culprit) : Node → Prop where
  | action {a : Action} (hid : a.actionId = c.id) (horigin : a.origin = c.origin) (hparts : c.parts = []) :
      c.Shown (.action a)
  | step {h : StepHead} {batch rest : List Node} (hid : h.actionId = c.id) (horigin : h.origin = c.origin)
      (hparts : List.Forall₂ (FailedPart c.origin) c.parts batch) : c.Shown (.step h (batch ++ rest))

/-- the failure `f` of `c` is shown at this place of the node -/
inductive Node.Blames (f : RecordedFailure) (c : Culprit) : Node → List Nat → Prop where
  | action {a : Action} (failed : a.failed = true) (exception : a.exception = some f) (hid : a.actionId = c.id)
      (horigin : a.origin = c.origin) (hparts : c.parts = []) : Blames f c (.action a) []
  | own {h : StepHead} {batch rest : List Node} (failed : h.failed = true) (exception : h.exception = some f)
      (hid : h.actionId = c.id) (horigin : h.origin = c.origin)
      (hparts : List.Forall₂ (FailedPart c.origin) c.parts batch) (hrest : allFlawless rest = true) :
      Blames f c (.step h (batch ++ rest)) []
  | inside {h : StepHead} {before after : List Node} {n : Node} {place : List Nat} (failed : h.failed = true)
      (exception : h.exception = none) (hbefore : allFlawless before = true) (hn : Blames f c n place)
      (hafter : allFlawless after = true) : Blames f c (.step h (before ++ n :: after)) (before.length :: place)

/-- where a failure is shown, and who it is put on -/
structure Blame where
  place : List Nat
  culprit : Culprit

namespace Blame

/-- the node at a place shares the blame: it is at or around the place of the failure, or one of the actions that failed
with the culprit -/
def Covers (b : Blame) (place : List Nat) : Prop :=
  place <+: b.place ∨ ∃ i < b.culprit.parts.length, place = b.place ++ [i]

/-- a node bears what the blame says of its place -/
structure Marks (b : Blame) (f : RecordedFailure) (place : List Nat) (n : Node) : Prop where
  exception : n.exception = if place = b.place then some f else none
  failed : n.failed = true ↔ b.Covers place

variable {c : Culprit} {place p : List Nat} {i j : Nat}

theorem covers_root (b : Blame) : b.Covers [] := Or.inl List.nil_prefix

theorem covers_cons : Covers ⟨i :: place, c⟩ (i :: p) ↔ Covers ⟨place, c⟩ p := by
  simp [Covers]

theorem not_covers_cons (h : i ≠ j) : ¬ Covers ⟨j :: place, c⟩ (i :: p) := by
  simp [Covers, h]

theorem covers_below : Covers ⟨[], c⟩ (i :: p) ↔ i < c.parts.length ∧ p = [] := by
  unfold Covers
  constructor
  · rintro (habove | ⟨k, hk, heq⟩)
    · simp at habove
    · obtain ⟨rfl, rfl⟩ := List.cons.inj heq
      exact ⟨hk, rfl⟩
  · rintro ⟨hi, rfl⟩
    exact Or.inr ⟨i, hi, rfl⟩

/-- a node that has nothing to do with the blame -/
theorem marks_of_not_covers {b : Blame} {f : RecordedFailure} {n : Node} (hp : ¬ b.Covers p)
    (hn : n.failed = false ∧ n.exception = none) : b.Marks f p n := by
  have hplace : p ≠ b.place := by
    rintro rfl
    exact hp (Or.inl (List.prefix_refl _))
  exact ⟨by rw [if_neg hplace, hn.2], by simp [hn.1, hp]⟩

theorem Marks.cons {f : RecordedFailure} {n : Node} (h : Marks ⟨place, c⟩ f p n) (i : Nat) :
    Marks ⟨i :: place, c⟩ f (i :: p) n := by
  refine ⟨?_, ?_⟩
  · rw [h.exception]
    simp
  · rw [h.failed, covers_cons]

end Blame

namespace Node

variable {f : RecordedFailure} {c : Culprit} {n : Node} {place : List Nat} {batch : List Node}

theorem Blames.failed (h : n.Blames f c place) : n.failed = true := by
  cases h with
  | action failed => exact failed
  | own failed => exact failed
  | inside failed => exact failed

theorem Blames.hasException (h : n.Blames f c place) : n.hasException = true := by
  induction h with
  | action failed exception => simp [Node.hasException, exception]
  | own failed exception => simp [Node.hasException, exception]
  | inside failed exception hbefore _ hafter ih => simp [Node.hasException, anyException_append, anyException, ih]

/-- a failed node is at the place itself, or around it -/
theorem marks_self (hfailed : n.failed = true) (hexception : n.exception = if place = [] then some f else none) :
    Blame.Marks ⟨place, c⟩ f [] n := by
  refine ⟨?_, ?_⟩
  · rw [hexception]
    simp [eq_comm]
  · simp [hfailed, Blame.covers_root]

theorem exists_part {origin : Option String} {parts : List (String × Option Element)}
    (h : List.Forall₂ (FailedPart origin) parts batch) (hn : n ∈ batch) : ∃ part ∈ parts, FailedPart origin part n := by
  obtain ⟨i, hi, rfl⟩ := List.mem_iff_getElem.1 hn
  have hlt : i < parts.length := h.length_eq ▸ hi
  exact ⟨parts[i], List.getElem_mem hlt, h.get hlt hi⟩

/-- below the children of a step to blame: first its batch, whose actions have nothing below them -/
theorem marks_batch {rest : List Node} (hparts : List.Forall₂ (FailedPart c.origin) c.parts batch)
    (hrest : allFlawless rest = true) {i : Nat} {p : List Nat} {child m : Node}
    (hchild : (batch ++ rest)[i]? = some child) (hbelow : child.below? p = some m) :
    Blame.Marks ⟨[], c⟩ f (i :: p) m := by
  have hlength := hparts.length_eq
  by_cases hi : i < batch.length
  · rw [List.getElem?_append_left hi] at hchild
    obtain ⟨_, -, a, rfl, -, -, -, hfailed, hnone⟩ := exists_part hparts (List.mem_of_getElem? hchild)
    cases p with
    | nil =>
      obtain rfl : Node.action a = m := Option.some.inj hbelow
      have hcovers : Blame.Covers ⟨[], c⟩ [i] := Blame.covers_below.2 ⟨hlength ▸ hi, rfl⟩
      exact ⟨by simp [Node.exception, hnone], by simp [Node.failed, hfailed, hcovers]⟩
    | cons j p => simp [below?, children] at hbelow
  · rw [List.getElem?_append_right (Nat.not_lt.1 hi)] at hchild
    have hflawless := (allFlawless_iff rest).1 hrest child (List.mem_of_getElem? hchild)
    have huncovered : ¬ Blame.Covers ⟨[], c⟩ (i :: p) := fun hcovers =>
      hi (hlength ▸ (Blame.covers_below.1 hcovers).1)
    exact Blame.marks_of_not_covers huncovered (flawless_below hflawless hbelow)

/-- a child other than the one in the middle -/
theorem mem_of_ne_middle {before after : List Node} {i : Nat} {child : Node} (hi : i ≠ before.length)
    (hchild : (before ++ n :: after)[i]? = some child) : child ∈ before ∨ child ∈ after := by
  rcases Nat.lt_or_gt_of_ne hi with hlt | hgt
  · rw [List.getElem?_append_left hlt] at hchild
    exact Or.inl (List.mem_of_getElem? hchild)
  · rw [List.getElem?_append_right hgt.le, List.getElem?_cons, if_neg (by omega)] at hchild
    exact Or.inr (List.mem_of_getElem? hchild)

/-- who is failed and who shows the exception, node by node -/
theorem Blames.marks (h : n.Blames f c place) {p : List Nat} {m : Node} (hm : n.below? p = some m) :
    Blame.Marks ⟨place, c⟩ f p m := by
  -- by recursion on the place of the blame; the place of the node leads away from it at most once
  induction h generalizing p with
  | @action a failed exception hid horigin hparts =>
    cases p with
    | nil =>
      obtain rfl : Node.action a = m := Option.some.inj hm
      exact marks_self failed exception
    | cons i p => simp [below?, children] at hm
  | @own h batch rest failed exception hid horigin hparts hrest =>
    cases p with
    | nil =>
      obtain rfl : Node.step h (batch ++ rest) = m := Option.some.inj hm
      exact marks_self failed exception
    | cons i p =>
      obtain ⟨child, hchild, hbelow⟩ := Option.bind_eq_some_iff.1 hm
      exact marks_batch hparts hrest hchild hbelow
  | @inside h before after n place failed exception hbefore hn hafter ih =>
    cases p with
    | nil =>
      obtain rfl : Node.step h (before ++ n :: after) = m := Option.some.inj hm
      exact marks_self failed exception
    | cons i p =>
      obtain ⟨child, hchild, hbelow⟩ := Option.bind_eq_some_iff.1 hm
      by_cases hi : i = before.length
      · subst hi
        simp only [children, List.getElem?_append_right le_rfl, Nat.sub_self, List.getElem?_cons_zero] at hchild
        obtain rfl := Option.some.inj hchild
        exact (ih hbelow).cons before.length
      · have hflawless : child.flawless = true := by
          rcases mem_of_ne_middle hi hchild with hmem | hmem
          · exact (allFlawless_iff before).1 hbefore child hmem
          · exact (allFlawless_iff after).1 hafter child hmem
        exact Blame.marks_of_not_covers (Blame.not_covers_cons hi) (flawless_below hflawless hbelow)

/-- the place is there, and its node is that of the culprit -/
theorem Blames.found (h : n.Blames f c place) : ∃ m, n.below? place = some m ∧ c.Shown m := by
  induction h with
  | action _ _ hid horigin hparts => exact ⟨_, rfl, .action hid horigin hparts⟩
  | own _ _ hid horigin hparts _ => exact ⟨_, rfl, .step hid horigin hparts⟩
  | inside _ _ _ _ _ ih =>
    obtain ⟨m, hm, hshown⟩ := ih
    refine ⟨m, ?_, hshown⟩
    simp [below?, children, hm]

/-- more that is recorded behind the place -/
theorem Blames.append {h : StepHead} {ns ws : List Node} (hb : (Node.step h ns).Blames f c place)
    (hws : allFlawless ws = true) : (Node.step h (ns ++ ws)).Blames f c place := by
  cases hb with
  | own failed exception hid horigin hparts hrest =>
    rw [List.append_assoc]
    refine .own failed exception hid horigin hparts ?_
    rw [allFlawless_append, hrest, hws]
    rfl
  | inside failed exception hbefore hn hafter =>
    rw [List.append_assoc, List.cons_append]
    refine .inside failed exception hbefore hn ?_
    rw [allFlawless_append, hafter, hws]
    rfl

/-- changes of the step that leave its failure alone, and what it was recorded for -/
theorem Blames.withHead {h k : StepHead} {ns : List Node} (hb : (Node.step h ns).Blames f c place)
    (hfailed : k.failed = true) (hexception : k.exception = h.exception) (hid : k.actionId = h.actionId)
    (horigin : k.origin = h.origin) : (Node.step k ns).Blames f c place := by
  cases hb with
  | own failed exception hcid hcorigin hparts hrest =>
    exact .own hfailed (hexception.trans exception) (hid.trans hcid) (horigin.trans hcorigin) hparts hrest
  | inside failed exception hbefore hn hafter =>
    exact .inside hfailed (hexception.trans exception) hbefore hn hafter

end Node

/-! ## While steps are open -/

/-- a step around the place of a failure: marked, and without a flaw in it so far -/
structure Step.Charged (y : Step) : Prop where
  failed : y.head.failed = true
  exception : y.head.exception = none
  children : Node.allFlawless y.children = true

/-- the step as the one a failure is put on -/
def Step.culprit (x : Step) : Culprit := { id := x.head.actionId, origin := x.head.origin }

namespace Recorder

/-- the open steps as those a failure is put on, innermost first -/
def culprits (r : Recorder) : List Culprit := r.openSteps.map Step.culprit

variable {f : RecordedFailure} {c : Culprit} {place : List Nat} {batch ws : List Node} {n : Node} {x y : Step}
  {r s : Recorder}

/-! ### What the open steps stand for -/

theorem culprits_renamed (h : Renamed s r) : r.culprits = s.culprits := by
  refine map_eq_of_forall₂ h.stack fun {a b} hab => ?_
  rw [show b = _ from hab]
  rfl

theorem culprits_marked (b : Bool) (steps : List Step) :
    (steps.map (marked b)).map Step.culprit = steps.map Step.culprit := by
  rw [List.map_map]
  exact List.map_congr_left fun _ _ => rfl

@[simp] theorem culprits_attach (r : Recorder) (n : Node) : (r.attach n).culprits = r.culprits := by
  cases ho : r.openSteps with
  | nil => rw [attach_nil r ho, culprits, culprits]
  | cons x outer =>
    rw [attach_cons r x outer ho, culprits, culprits, ho]
    rfl

@[simp] theorem culprits_recordAction (r : Recorder) (a : Action) : (r.recordAction a).culprits = r.culprits := by
  rw [recordAction_eq, culprits_attach]
  exact culprits_marked a.failed r.openSteps

@[simp] theorem culprits_recordMessage (r : Recorder) (text : String) (level : Level) :
    (r.recordMessage text level).culprits = r.culprits := culprits_attach r _

theorem culprit_fail (x : Step) (e : Option RecordedFailure) : (x.fail e).culprit = x.culprit := by
  rw [fail_eq]
  rfl

theorem culprits_failCurrent (r : Recorder) (failure : Option Failure) :
    (r.failCurrent failure).culprits = r.culprits := by
  unfold failCurrent
  cases ho : r.openSteps with
  | nil => rfl
  | cons x outer =>
    simp only [culprits, ho, failOpenSteps, ← marked_true, culprits_marked, List.map_cons]
    exact congrArg (· :: outer.map Step.culprit) (culprit_fail x _)

theorem culprits_openStep (r : Recorder) (x : Step) : (r.openStep x).culprits = x.culprit :: r.culprits := by
  unfold openStep culprits
  cases r.openSteps with
  | nil => rfl
  | cons y outer => rfl

theorem culprits_closeStep (r : Recorder) (outcome : Option Failure) :
    (r.closeStep outcome).culprits = r.culprits.tail := by
  cases ho : r.openSteps with
  | nil => rw [closeStep_nil r ho, culprits, ho, List.map_nil, List.tail_nil]
  | cons x outer =>
    rw [closeStep_cons r x outer ho, culprits_attach, culprits, culprits, ho, List.map_cons, List.tail_cons]
    exact culprits_marked _ outer

/-! ### Steps around the place -/

theorem charged_of_flawless (h : y.flawless = true) : (marked true y).Charged := by
  simp only [Step.flawless, Step.toNode, Node.flawless, Bool.and_eq_true, Option.isNone_iff_eq_none] at h
  exact ⟨Bool.or_true _, h.1.2, h.2⟩

theorem charged_of_allFlawless {ys : List Step} (h : ∀ y ∈ ys, y.flawless = true) :
    ∀ z ∈ ys.map (marked true), z.Charged := by
  intro z hz
  obtain ⟨y, hy, rfl⟩ := List.mem_map.1 hz
  exact charged_of_flawless (h y hy)

theorem charged_marked (h : y.Charged) (b : Bool) : (marked b y).Charged :=
  ⟨by simp [marked, h.failed], h.exception, h.children⟩

/-- a step around the place, with the node that has it -/
theorem blames_around (h : y.Charged) (hn : n.Blames f c place) (hws : Node.allFlawless ws = true) :
    (adding y (n :: ws)).toNode.Blames f c (y.children.length :: place) :=
  .inside h.failed h.exception h.children hn hws

/-- a step that fails with nothing failed in it shows the failure itself -/
theorem blames_fail (hx : x.flawless = true) (e : RecordedFailure) :
    (x.fail (some e)).toNode.Blames e x.culprit [] := by
  have hnone : x.hasException = false := Node.hasException_of_flawless hx
  simp only [Step.flawless, Step.toNode, Node.flawless, Bool.and_eq_true] at hx
  have hown : (Node.step { x.head with failed := true, exception := some e } ([] ++ x.children)).Blames e x.culprit [] :=
    .own rfl rfl rfl rfl .nil hx.2
  unfold Step.fail
  simp only [hnone, Bool.false_eq_true, if_false]
  exact hown

/-- closing a step that has the place changes nothing about it -/
theorem blames_closedStep (hx : x.toNode.Blames f c place) (outcome : Option Failure) (now : Timestamp) :
    (closedStep x outcome now).toNode.Blames f c place := by
  have hexception : x.hasException = true := hx.hasException
  cases outcome with
  | none => exact hx.withHead hx.failed rfl rfl rfl
  | some e =>
    have hsettled : closedStep x (some e) now =
        Step.markFailed { x with head := { x.head with durationMs := x.head.startedAt.millisUntil now } } :=
      if_pos hexception
    rw [hsettled]
    exact hx.withHead rfl rfl rfl rfl

/-- a step without children that has the place is the place, and failed alone -/
theorem Blames.of_childless {h : StepHead} {ns : List Node} (hb : (Node.step h ns).Blames f c place) (hns : ns = []) :
    h.failed = true ∧ h.exception = some f ∧ h.actionId = c.id ∧ h.origin = c.origin ∧ c.parts = [] ∧ place = [] := by
  cases hb with
  | own failed exception hid horigin hparts =>
    rw [(List.append_eq_nil_iff.1 hns).1] at hparts
    exact ⟨failed, exception, hid, horigin, List.forall₂_nil_right_iff.1 hparts, rfl⟩
  | inside => simp at hns

/-- a step that becomes an action keeps the failure -/
theorem blames_closedNode (hx : x.toNode.Blames f c place) (outer : List Step) :
    (closedNode x outer).Blames f c place := by
  unfold closedNode
  split
  · rename_i hcond
    simp only [Bool.and_eq_true, List.isEmpty_iff] at hcond
    obtain ⟨hfailed, hexception, hid, horigin, hparts, rfl⟩ := Blames.of_childless hx hcond.2
    exact .action hfailed hexception hid horigin hparts
  · exact hx

theorem anyException_of_parts {origin : Option String} {parts : List (String × Option Element)}
    (h : List.Forall₂ (FailedPart origin) parts batch) : Node.anyException batch = false := by
  rw [Node.anyException_eq_any, List.any_eq_false]
  intro n hn
  obtain ⟨_, -, a, rfl, -, -, -, -, hnone⟩ := Node.exists_part h hn
  simp [Node.hasException, hnone]

/-- the node of a step that failed with its batch -/
theorem blames_stepNode (s : Recorder) (x : FreshStep) (e : Failure) (now : Timestamp) {rest : List Node}
    (hid : x.val.head.actionId = c.id) (horigin : x.val.head.origin = c.origin)
    (hparts : List.Forall₂ (FailedPart c.origin) c.parts batch) (hrest : Node.allFlawless rest = true) :
    (stepNode s x (batch ++ rest) (some e) now).Blames e.recorded c [] := by
  have hnone : Node.anyException (batch ++ rest) = false := by
    rw [Node.anyException_append, anyException_of_parts hparts, Node.anyException_of_flawless hrest]
    rfl
  have hexception : ∀ position, (bracketHead (maskedStep s x) (true || (batch ++ rest).any Node.failed) (batch ++ rest)
      (some e) now position).exception = some e.recorded := by
    intro position
    simp [bracketHead, hnone]
  unfold stepNode
  split
  · exact .own rfl (hexception _) hid horigin hparts hrest
  · simp only
    split
    · rename_i hempty
      rw [(List.append_eq_nil_iff.1 (List.isEmpty_iff.1 hempty)).1] at hparts
      exact .action rfl (hexception none) hid horigin (List.forall₂_nil_right_iff.1 hparts)
    · exact .own rfl (hexception none) hid horigin hparts hrest

/-! ### Records -/

/-- The failure `f`, and nothing else, shows in the record: at one place if somebody is to blame for it, and nowhere if
nobody is. -/
inductive Blamed (f : RecordedFailure) : Option Culprit → Recorder → Prop where
  | unseen {r : Recorder} (h : Good r) : Blamed f none r
  | within {r : Recorder} {c : Culprit} {x : Step} {outer : List Step} {place : List Nat}
      (ho : r.openSteps = x :: outer) (hx : x.toNode.Blames f c place) (houter : ∀ y ∈ outer, y.Charged)
      (hroots : Node.allFlawless r.roots = true) : Blamed f (some c) r
  | closed {r : Recorder} {c : Culprit} {before after : List Node} {n : Node} {place : List Nat} (ho : r.openSteps = [])
      (hr : r.roots = before ++ n :: after) (hbefore : Node.allFlawless before = true) (hn : n.Blames f c place)
      (hafter : Node.allFlawless after = true) : Blamed f (some c) r

variable {who : Option Culprit}

/-- a node with the place joins the record, and the steps around it are marked -/
theorem blamed_attach (hroots : Node.allFlawless r.roots = true) (hsteps : ∀ y ∈ r.openSteps, y.Charged)
    (hn : n.Blames f c place) : Blamed f (some c) (r.attach n) := by
  cases ho : r.openSteps with
  | nil =>
    rw [attach_nil r ho]
    exact .closed ho rfl hroots hn rfl
  | cons y outer =>
    rw [ho] at hsteps
    obtain ⟨hy, houter⟩ := List.forall_mem_cons.1 hsteps
    rw [attach_cons r y outer ho]
    exact .within rfl (blames_around hy hn rfl) houter hroots

/-- a good record gains a node with the place, and others without a flaw behind it -/
theorem blamed_gained (hs : Good s) (hn : n.Blames f c place) (hws : Node.allFlawless ws = true) (now : Timestamp) :
    Blamed f (some c) (s.gained (n :: ws) now) := by
  have hsteps := hs.steps
  cases ho : s.openSteps with
  | nil =>
    rw [gained_root ho]
    exact .closed ho rfl hs.roots hn hws
  | cons y outer =>
    rw [ho] at hsteps
    obtain ⟨hy, houter⟩ := List.forall_mem_cons.1 hsteps
    rw [gained_inside ho, List.any_cons, hn.failed, Bool.true_or]
    exact .within rfl (blames_around (charged_of_flawless hy) hn hws) (charged_of_allFlawless houter) hs.roots

theorem Blamed.recordMessage (h : Blamed f who r) (text : String) (level : Level) :
    Blamed f who (r.recordMessage text level) := by
  unfold Recorder.recordMessage
  cases h with
  | unseen h => exact .unseen (h.recordMessage text level)
  | within ho hx houter hroots =>
    rw [attach_cons r _ _ ho]
    exact .within rfl (hx.append rfl) houter hroots
  | @closed _ c before after n place ho hr hbefore hn hafter =>
    let message : Node := .message ⟨r.masked text, level, r.now⟩
    have hmore : r.roots ++ [message] = before ++ n :: (after ++ [message]) := by rw [hr, List.append_assoc]; rfl
    have hrest : Node.allFlawless (after ++ [message]) = true := by
      rw [Node.allFlawless_append, hafter]
      rfl
    rw [attach_nil r ho]
    exact .closed ho hmore hbefore hn hrest

/-- what is blamed stays so when a step is closed, with the failure or with none -/
theorem Blamed.closeSeen (h : Blamed f (some c) r) (outcome : Option Failure) :
    Blamed f (some c) (r.closeStep outcome) := by
  cases h with
  | @within _ _ x outer place ho hx houter hroots =>
    rw [closeStep_cons r x outer ho]
    refine blamed_attach hroots (fun z hz => ?_) (blames_closedNode (blames_closedStep hx outcome r.now) outer)
    obtain ⟨y, hy, rfl⟩ := List.mem_map.1 hz
    exact charged_marked (houter y hy) _
  | closed ho hr hbefore hn hafter =>
    rw [closeStep_nil r ho]
    exact .closed ho hr hbefore hn hafter

/-- a step that is closed with a failure nobody is to blame for is to blame itself -/
theorem Good.closeStep_failed (h : Good r) (e : Failure) :
    Blamed e.recorded r.culprits.head? (r.closeStep (some e)) := by
  cases ho : r.openSteps with
  | nil =>
    rw [closeStep_nil r ho, culprits, ho]
    exact .unseen h
  | cons x outer =>
    have hsteps := h.steps
    rw [ho] at hsteps
    obtain ⟨hx, houter⟩ := List.forall_mem_cons.1 hsteps
    have hown : (closedStep x (some e) r.now).toNode.Blames e.recorded x.culprit [] :=
      blames_fail (flawless_closedStep hx r.now) e.recorded
    have hfailed : (closedStep x (some e) r.now).head.failed = true := hown.failed
    rw [closeStep_cons r x outer ho, hfailed, culprits, ho]
    exact blamed_attach h.roots (charged_of_allFlawless houter) (blames_closedNode hown outer)

/-- a step is closed with the failure -/
theorem Blamed.closeStep {e : Failure} (h : Blamed e.recorded who r) :
    Blamed e.recorded (who.or r.culprits.head?) (r.closeStep (some e)) := by
  cases who with
  | none =>
    cases h with
    | unseen h => exact h.closeStep_failed e
  | some c => exact h.closeSeen (some e)

theorem Blamed.closeAll (h : Blamed f who r) : Blamed f who r.closeAll := by
  refine closeAll_keeps (fun r hr => ?_) h
  cases who with
  | none =>
    cases hr with
    | unseen h => exact .unseen h.closeStep
  | some c => exact hr.closeSeen none

/-- a failure that is put on the innermost open step -/
theorem blamed_failCurrent (hs : Good s) (e : Failure) :
    Blamed e.recorded s.culprits.head? (s.failCurrent (some e)) := by
  have hsteps := hs.steps
  unfold failCurrent culprits
  cases ho : s.openSteps with
  | nil => exact .unseen hs
  | cons x outer =>
    rw [ho] at hsteps
    obtain ⟨hx, houter⟩ := List.forall_mem_cons.1 hsteps
    have hown : (x.fail (some e.recorded)).toNode.Blames e.recorded x.culprit [] := blames_fail hx e.recorded
    simp only [failOpenSteps, List.map_cons, ← marked_true]
    exact .within rfl (hown.withHead (by simp [marked]) rfl rfl rfl) (charged_of_allFlawless houter) hs.roots

end Recorder

/-! ## The finished forest -/

/-- the blame names a node of the forest, and this is the node of the culprit -/
def Blame.Found (forest : List Node) (b : Blame) : Prop :=
  ∃ n, Node.at? forest b.place = some n ∧ b.culprit.Shown n

/-- a forest in which each node bears what the blame says; without a blame none is failed and none has an exception -/
structure Blame.Fits (f : RecordedFailure) (forest : List Node) (blame : Option Blame) : Prop where
  exception : ∀ place n, Node.at? forest place = some n →
    n.exception = if blame.map Blame.place = some place then some f else none
  failed : ∀ place n, Node.at? forest place = some n → (n.failed = true ↔ ∃ b ∈ blame, b.Covers place)
  found : ∀ b ∈ blame, b.Found forest

/-- the same of a forest with the closing step of a failed test, which is failed in any case -/
structure Blame.FitsTest (f : RecordedFailure) (forest : List Node) (blame : Option Blame) : Prop where
  exception : ∀ place n, Node.at? forest place = some n →
    n.exception = if blame.map Blame.place = some place then some f else none
  failed : ∀ place n, Node.at? forest place = some n →
    (n.failed = true ↔ (∃ b ∈ blame, b.Covers place) ∨ place = [forest.length - 1])
  found : ∀ b ∈ blame, b.Found forest
  last : forest.getLast?.map Node.name = some Recorder.endName

namespace Blame

variable {f : RecordedFailure} {c : Culprit} {forest : List Node} {blame : Option Blame}

theorem fits_flawless (h : Node.allFlawless forest = true) : Fits f forest none := by
  have hnode : ∀ place n, Node.at? forest place = some n → n.failed = false ∧ n.exception = none := by
    intro place n hn
    cases place with
    | nil => cases hn
    | cons i place =>
      obtain ⟨child, hchild, hbelow⟩ := Option.bind_eq_some_iff.1 hn
      exact Node.flawless_below ((Node.allFlawless_iff forest).1 h child (List.mem_of_getElem? hchild)) hbelow
  refine ⟨fun place n hn => ?_, fun place n hn => ?_, fun b hb => by cases hb⟩
  · simp [(hnode place n hn).2]
  · simp [(hnode place n hn).1]

/-- a forest is blamed like a step around it -/
theorem fits_blamed {before after : List Node} {n : Node} {place : List Nat}
    (hbefore : Node.allFlawless before = true) (hn : n.Blames f c place) (hafter : Node.allFlawless after = true) :
    Fits f (before ++ n :: after) (some ⟨before.length :: place, c⟩) := by
  let head : StepHead := { name := "", actionId := "", failed := true, startedAt := default }
  have hstep : (Node.step head (before ++ n :: after)).Blames f c (before.length :: place) :=
    .inside rfl rfl hbefore hn hafter
  have hmarks : ∀ p m, Node.at? (before ++ n :: after) p = some m →
      Marks ⟨before.length :: place, c⟩ f p m := by
    intro p m hm
    cases p with
    | nil => cases hm
    | cons i p => exact hstep.marks hm
  refine ⟨fun p m hm => ?_, fun p m hm => ?_, fun b hb => ?_⟩
  · rw [(hmarks p m hm).exception]
    simp [eq_comm]
  · rw [(hmarks p m hm).failed]
    simp
  · obtain rfl := Option.some.inj hb
    exact hstep.found

theorem Found.place_lt {b : Blame} (h : b.Found forest) :
    ∃ i place, b.place = i :: place ∧ i < forest.length := by
  obtain ⟨n, hn, -⟩ := h
  cases hplace : b.place with
  | nil =>
    rw [hplace] at hn
    cases hn
  | cons i place =>
    rw [hplace] at hn
    obtain ⟨child, hchild, -⟩ := Option.bind_eq_some_iff.1 hn
    exact ⟨i, place, rfl, (List.getElem?_eq_some_iff.1 hchild).1⟩

/-- what is in a forest that is closed by one more step: what was there before, this step, and its message -/
theorem at?_closed {head : StepHead} {m : Message} {place : List Nat} {n : Node}
    (hn : Node.at? (forest ++ [.step head [.message m]]) place = some n) :
    (Node.at? forest place = some n ∧ place ≠ [forest.length]) ∨
      (place = [forest.length] ∧ n = .step head [.message m]) ∨
      ∃ p, place = forest.length :: p ∧ p ≠ [] ∧ n.failed = false ∧ n.exception = none := by
  cases place with
  | nil => cases hn
  | cons i p =>
    obtain ⟨child, hchild, hbelow⟩ := Option.bind_eq_some_iff.1 hn
    by_cases hi : i < forest.length
    · rw [List.getElem?_append_left hi] at hchild
      exact Or.inl ⟨by simp [Node.at?, hchild, hbelow], by simp [hi.ne]⟩
    · rw [List.getElem?_append_right (Nat.not_lt.1 hi), List.getElem?_singleton] at hchild
      obtain ⟨hzero, hlast⟩ := Option.ite_none_right_eq_some.1 hchild
      obtain rfl := Option.some.inj hlast
      obtain rfl : i = forest.length := by omega
      cases p with
      | nil => exact Or.inr (Or.inl ⟨rfl, (Option.some.inj hbelow).symm⟩)
      | cons j p =>
        obtain ⟨below, hmessage, hrest⟩ := Option.bind_eq_some_iff.1 hbelow
        obtain rfl : below = .message m := List.mem_singleton.1 (List.mem_of_getElem? hmessage)
        have hsound : (Node.message m).flawless = true := rfl
        exact Or.inr (Or.inr ⟨j :: p, rfl, List.cons_ne_nil j p, Node.flawless_below hsound hrest⟩)

/-- the closing step of a failed test behind the others -/
theorem Fits.close (h : Fits f forest blame) {head : StepHead} {m : Message}
    (hname : head.name = Recorder.endName) (hfailed : head.failed = true) (hexception : head.exception = none) :
    FitsTest f (forest ++ [.step head [.message m]]) blame := by
  have hnone : ∀ b ∈ blame, ∀ p, ¬ b.Covers (forest.length :: p) := by
    intro b hb p
    obtain ⟨i, place, hplace, hi⟩ := (h.found b hb).place_lt
    obtain ⟨_, c⟩ := b
    obtain rfl : _ = i :: place := hplace
    exact not_covers_cons hi.ne'
  have hplace : ∀ p, blame.map Blame.place ≠ some (forest.length :: p) := by
    intro p hp
    obtain ⟨b, hb, hb'⟩ := Option.map_eq_some_iff.1 hp
    exact hnone b hb p (Or.inl (by rw [hb']))
  have hlength : (forest ++ [Node.step head [.message m]]).length - 1 = forest.length := by simp
  refine ⟨fun place n hn => ?_, fun place n hn => ?_, fun b hb => ?_, by simp [Node.name, hname]⟩
  · rcases at?_closed hn with ⟨hn, -⟩ | ⟨rfl, rfl⟩ | ⟨p, rfl, -, -, hnothing⟩
    · exact h.exception place n hn
    · rw [if_neg (hplace [])]
      exact hexception
    · rw [if_neg (hplace p)]
      exact hnothing
  · rw [hlength]
    rcases at?_closed hn with ⟨hn, hne⟩ | ⟨rfl, rfl⟩ | ⟨p, rfl, hp, hsound, -⟩
    · simp [h.failed place n hn, hne]
    · simp [Node.failed, hfailed]
    · have huncovered : ∀ b, blame = some b → ¬ b.Covers (forest.length :: p) := fun b hb => hnone b hb p
      simpa [hsound, hp] using huncovered
  · obtain ⟨n, hn, hshown⟩ := h.found b hb
    exact ⟨n, Node.at?_append hn _, hshown⟩

end Blame

/-- a failed test is blamed for one place at most, once all steps are closed and the closing step is recorded -/
theorem Recorder.Blamed.finish {e : Failure} {who : Option Culprit} {r : Recorder}
    (h : Recorder.Blamed e.recorded who r) (screenshot : Option Attachment) :
    ∃ blame : Option Blame, blame.map Blame.culprit = who ∧
      Blame.FitsTest e.recorded (r.finish (some e) screenshot).roots blame := by
  have hroots : ∃ blame : Option Blame, blame.map Blame.culprit = who ∧
      Blame.Fits e.recorded r.closeAll.roots blame := by
    have hopen := Recorder.openSteps_closeAll r
    cases h.closeAll with
    | unseen h => exact ⟨none, rfl, Blame.fits_flawless h.roots⟩
    | within ho => simp [hopen] at ho
    | closed _ hr hbefore hn hafter =>
      rw [hr]
      exact ⟨_, rfl, Blame.fits_blamed hbefore hn hafter⟩
  obtain ⟨blame, hwho, hfits⟩ := hroots
  exact ⟨blame, hwho, hfits.close rfl rfl rfl⟩

end TestTrail
