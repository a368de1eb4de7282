/-
A recorder that has gained nodes.

`gained r ns now` is the recorder `r` with the nodes `ns` recorded in its innermost open step, or as roots when no step
is open. No other steps are open than before, and these are marked when one of the nodes failed. Whatever is recorded and
closed again comes to this: one operation adds one node, stretches add up (`gained_gained`), a step that is opened and
closed around a stretch is one node (`closeStep_gained`), and a rollback takes everything off again (`rollback_gained`).
-/
import TestTrail.Proofs.Recorder.Building
import TestTrail.Proofs.Recorder.Rollback

namespace TestTrail.Recorder

open TestTrail.Text

/-- the recorder when nodes were recorded in the innermost open step, or as roots -/
def gained (r : Recorder) (ns : List Node) (now : Timestamp) : Recorder :=
  match r.openSteps with
  | [] => grownRoots r ns (ns.countP fun n => n.toStep?.isSome) now
  | p :: outer => recorded r p outer (ns.any Node.failed) ns now

variable {r : Recorder}

theorem gained_root (ho : r.openSteps = []) (ns : List Node) (now : Timestamp) :
    r.gained ns now = grownRoots r ns (ns.countP fun n => n.toStep?.isSome) now := by
  unfold gained
  rw [ho]

theorem gained_inside {p : Step} {outer : List Step} (ho : r.openSteps = p :: outer) (ns : List Node)
    (now : Timestamp) : r.gained ns now = recorded r p outer (ns.any Node.failed) ns now := by
  unfold gained
  rw [ho]

theorem gained_nil (r : Recorder) (now : Timestamp) : r.gained [] now = r.moveTo now := by
  cases ho : r.openSteps with
  | nil =>
    rw [gained_root ho]
    simp [grownRoots, moveTo]
  | cons p outer =>
    rw [gained_inside ho]
    simp [recorded, moveTo, marked_false, adding, ho]

theorem gained_gained (r : Recorder) (ns ms : List Node) (now later : Timestamp) :
    (r.gained ns now).gained ms later = r.gained (ns ++ ms) later := by
  cases ho : r.openSteps with
  | nil =>
    rw [gained_root ho, gained_root ho, gained_root (r := grownRoots r ns _ now) ho]
    simp only [grownRoots, List.append_assoc, List.countP_append, Nat.add_assoc]
  | cons p outer =>
    rw [gained_inside ho, gained_inside ho, List.any_append, ← recorded_recorded, gained_inside rfl]

theorem masked_gained (r : Recorder) (ns : List Node) (now : Timestamp) (text : String) :
    (r.gained ns now).masked text = r.masked text := by
  unfold gained
  split
  · rfl
  · rfl

theorem now_gained (r : Recorder) (ns : List Node) (now : Timestamp) : (r.gained ns now).now = now := by
  unfold gained
  split
  · rfl
  · rfl

/-! ## Recording -/

theorem recordAction_gained (r : Recorder) (ns : List Node) (now : Timestamp) (a : Action) :
    (r.gained ns now).recordAction a = r.gained (ns ++ [.action { a with name := r.masked a.name }]) now := by
  have hone : ∀ t : Recorder, t.recordAction a = t.gained [.action { a with name := t.masked a.name }] t.now := by
    intro t
    rw [recordAction_eq]
    cases ho : t.openSteps with
    | nil => rw [gained_root ho, List.map_nil, attach_nil _ rfl, ← ho]; rfl
    | cons p outer =>
      rw [gained_inside ho, List.map_cons, attach_cons _ _ _ rfl]
      simp only [recorded, List.any_cons, List.any_nil, Bool.or_false, Node.failed]
  rw [hone, gained_gained, masked_gained, now_gained]

theorem recordMessage_gained (r : Recorder) (ns : List Node) (now : Timestamp) (text : String) (level : Level) :
    (r.gained ns now).recordMessage text level = r.gained (ns ++ [.message ⟨r.masked text, level, now⟩]) now := by
  have hone : ∀ t : Recorder, t.recordMessage text level = t.gained [.message ⟨t.masked text, level, t.now⟩] t.now := by
    intro t
    unfold recordMessage
    cases ho : t.openSteps with
    | nil => rw [gained_root ho, attach_nil _ ho]; rfl
    | cons p outer =>
      rw [gained_inside ho, attach_cons _ _ _ ho]
      simp [recorded, marked_false, Node.failed]
  rw [hone, gained_gained, masked_gained, now_gained]

/-! ## Closing -/

theorem Step.Fresh.rename {x : Step} (hx : x.Fresh) (name : String) :
    Step.Fresh { x with head := { x.head with name := name } } :=
  ⟨hx.children, hx.failed, hx.exception, hx.attachments, hx.position⟩

/-- the step as it is opened, but for its number -/
def maskedStep (r : Recorder) (x : FreshStep) : FreshStep :=
  ⟨_, Step.Fresh.rename x.property (r.masked x.val.head.name)⟩

/-- the node of a step around nodes: an action when it lies inside another step and there are none -/
def stepNode (r : Recorder) (x : FreshStep) (ns : List Node) (outcome : Option Failure) (now : Timestamp) : Node :=
  let failed := outcome.isSome || ns.any Node.failed
  match r.openSteps with
  | [] => .step (bracketHead (maskedStep r x) failed ns outcome now (some r.rootPositions)) ns
  | _ :: _ =>
    let head := bracketHead (maskedStep r x) failed ns outcome now none
    if ns.isEmpty then .action (Step.mk head ns).toAction else .step head ns

theorem failed_stepNode (r : Recorder) (x : FreshStep) (ns : List Node) (outcome : Option Failure) (now : Timestamp) :
    (stepNode r x ns outcome now).failed = (outcome.isSome || ns.any Node.failed) := by
  unfold stepNode
  split
  · rfl
  · split
    · rfl
    · rfl

/-- a step that is closed again is one node for the steps around it -/
theorem closeStep_gained (r : Recorder) (x : FreshStep) (ns : List Node) (now : Timestamp)
    (outcome : Option Failure) :
    ((r.openStep x.val).gained ns now).closeStep outcome = r.gained [stepNode r x ns outcome now] now := by
  cases ho : r.openSteps with
  | nil =>
    have hopen : r.openStep x.val =
        { r with
          openSteps := [numbered (maskedStep r x).val (some r.rootPositions)]
          rootPositions := r.rootPositions + 1 } := by
      unfold openStep
      rw [ho]
      rfl
    rw [hopen, gained_inside rfl, closeStep_root _ (maskedStep r x) r.rootPositions _ ns rfl, gained_root ho,
      grownRoots]
    simp only [stepNode, ho]
    rfl
  | cons p outer =>
    have hopen : r.openStep x.val = { r with openSteps := (maskedStep r x).val :: p :: outer } := by
      unfold openStep
      rw [ho]
      rfl
    rw [hopen, gained_inside rfl, closeStep_nested _ (maskedStep r x) _ ns p outer rfl, gained_inside ho,
      List.any_cons, List.any_nil, Bool.or_false, failed_stepNode]
    simp only [stepNode, ho]
    rfl

/-! ## Going back -/

theorem extends_gained (r : Recorder) (ns : List Node) (now : Timestamp) :
    Extends (r.moveTo now) (r.gained ns now) := by
  cases ho : r.openSteps with
  | nil =>
    rw [gained_root ho]
    exact ⟨List.prefix_append _ _, Nat.le_add_right _ _, Under.refl _, rfl, rfl, rfl⟩
  | cons p outer =>
    rw [gained_inside ho]
    refine ⟨List.prefix_refl _, le_rfl, ?_, rfl, rfl, rfl⟩
    change Under r.openSteps _
    rw [ho]
    exact ((Under.refl (p :: outer)).map (grown_marked _)).replace (grown_adding _ ns)

/-- going back takes off all that was gained; the time stays -/
theorem rollback_gained (r : Recorder) (ns : List Node) (now : Timestamp) :
    (r.gained ns now).rollback r.checkpoint = r.gained [] now := by
  rw [gained_nil]
  exact (extends_gained r ns now).rollback_eq

end TestTrail.Recorder
