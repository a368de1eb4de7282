/-
Recording on a stack builds the tree that a recursion builds.

A script is what a test does when every step it opens is closed again: actions, messages, and brackets around further
events. `Event.acts` plays a script on a recorder, one operation after the other; `forest` translates it by recursion,
without a stack: a bracket is a step around the translation of its events, or an action when it stands in another
bracket and holds nothing.

The recorder marks the open steps when something fails inside them, long before they are closed, and it looks for
exceptions only on closing. `Event.fails` and `Node.anyException` say what both come to: `run_actsAll` is the invariant
of a script inside an open step, `roots_eq_forest` the result for a whole test.
-/
import Mathlib.Tactic
import TestTrail.Proofs.Recorder.History
import TestTrail.Proofs.Recorder.Operations
import TestTrail.Proofs.Tree.Places

namespace TestTrail.Recorder

open TestTrail.Text

/-! ## Scripts -/

inductive Event where
  | action (a : Action)
  | message (text : String) (level : Level) (time : Timestamp)
  /-- a step around further events, its outcome, and the time when it is closed -/
  | bracket (s : FreshStep) (inner : List Event) (outcome : Option Failure) (closed : Timestamp)

mutual

/-- the event as the recorder sees it -/
def Event.acts : Event → List Act
  | .action a => [.op (.recordAction a)]
  | .message text level time => [.wait time, .op (.recordMessage text level)]
  | .bracket s inner outcome closed =>
    .op (.openStep s.val) :: (actsAll inner ++ [.wait closed, .op (.closeStep outcome)])

def actsAll : List Event → List Act
  | [] => []
  | e :: es => e.acts ++ actsAll es

end

/-! ## Their translation -/

mutual

/-- a failed action, or a bracket closed with a failure, is there or inside -/
def Event.fails : Event → Bool
  | .action a => a.failed
  | .message .. => false
  | .bracket _ inner outcome _ => outcome.isSome || anyFails inner

def anyFails : List Event → Bool
  | [] => false
  | e :: es => e.fails || anyFails es

end

/-- the step of a bracket; it shows its own failure only when no node in it shows one -/
def bracketHead (s : FreshStep) (failed : Bool) (children : List Node) (outcome : Option Failure) (closed : Timestamp)
    (position : Option Nat) : StepHead :=
  { s.val.head with
    failed := failed
    exception := if Node.anyException children then none else outcome.map Failure.recorded
    position := position
    durationMs := s.val.head.startedAt.millisUntil closed }

/-- a bracket shows a failure exactly if it is its own, and there is an exception at no place inside -/
theorem bracketHead_exception_iff (s : FreshStep) (failed : Bool) (children : List Node) (outcome : Option Failure)
    (closed : Timestamp) (position : Option Nat) (f : RecordedFailure) :
    (bracketHead s failed children outcome closed position).exception = some f ↔
      (∃ e, outcome = some e ∧ e.recorded = f) ∧
        ∀ place n, Node.at? children place = some n → n.exception = none := by
  rw [← Node.anyException_eq_false_iff, ← Option.map_eq_some_iff]
  change (if Node.anyException children = true then none else outcome.map Failure.recorded) = some f ↔ _
  cases Node.anyException children with
  | true => simp
  | false => simp

mutual

/-- an event inside a bracket -/
def Event.node : Event → Node
  | .action a => .action a
  | .message text level time => .message ⟨text, level, time⟩
  | .bracket s inner outcome closed =>
    if inner.isEmpty then
      .action
        { name := s.val.head.name, actionId := s.val.head.actionId, origin := s.val.head.origin
          element := s.val.head.element, failed := outcome.isSome, exception := outcome.map Failure.recorded
          timestamp := s.val.head.startedAt }
    else
      .step (bracketHead s (outcome.isSome || anyFails inner) (nodes inner) outcome closed none) (nodes inner)

def nodes : List Event → List Node
  | [] => []
  | e :: es => e.node :: nodes es

end

/-- the roots of a script; brackets are numbered from `n` on -/
def forest : Nat → List Event → List Node
  | _, [] => []
  | n, .bracket s inner outcome closed :: es =>
    .step (bracketHead s (outcome.isSome || anyFails inner) (nodes inner) outcome closed (some n)) (nodes inner) ::
      forest (n + 1) es
  | n, e :: es => e.node :: forest n es

/-- the number of brackets that are not inside another one -/
def rootBrackets : List Event → Nat
  | [] => 0
  | .bracket .. :: es => rootBrackets es + 1
  | _ :: es => rootBrackets es

/-! ## One event on the stack -/

/-- the recorder when nodes were recorded in the innermost open step `p` -/
def recorded (r : Recorder) (p : Step) (outer : List Step) (failed : Bool) (ns : List Node) (now : Timestamp) :
    Recorder :=
  { r with openSteps := adding (marked failed p) ns :: outer.map (marked failed), now := now }

theorem recordAction_nested (r : Recorder) (hs : r.secrets = []) (p : Step) (outer : List Step)
    (ho : r.openSteps = p :: outer) (a : Action) :
    r.recordAction a = recorded r p outer a.failed [.action a] r.now := by
  rw [recordAction_eq, masked_of_no_secrets r hs, ho]
  exact attach_cons _ _ _ rfl _

theorem recordMessage_nested (r : Recorder) (hs : r.secrets = []) (p : Step) (outer : List Step)
    (ho : r.openSteps = p :: outer) (text : String) (level : Level) :
    r.recordMessage text level = recorded r p outer false [.message ⟨text, level, r.now⟩] r.now := by
  unfold recordMessage
  rw [masked_of_no_secrets r hs, attach_cons r p outer ho]
  simp only [recorded, marked_false, id_eq, List.map_id]

theorem openStep_nested (r : Recorder) (hs : r.secrets = []) (p : Step) (outer : List Step)
    (ho : r.openSteps = p :: outer) (s : Step) : r.openStep s = { r with openSteps := s :: p :: outer } := by
  unfold openStep
  rw [ho, masked_of_no_secrets r hs]

/-- the step with its number among the roots -/
def numbered (s : Step) (position : Option Nat) : Step := { s with head := { s.head with position := position } }

theorem numbered_none (s : FreshStep) : numbered s.val none = s.val := by
  rw [numbered, ← s.property.position]

/-- the step of a bracket on closing, with the marks and the nodes it got while it was open -/
theorem closedStep_bracket (s : FreshStep) (position : Option Nat) (b : Bool) (ns : List Node)
    (outcome : Option Failure) (now : Timestamp) :
    closedStep (adding (marked b (numbered s.val position)) ns) outcome now =
      ⟨bracketHead s (outcome.isSome || b) ns outcome now position, ns⟩ := by
  have hns : s.val.children ++ ns = ns := by rw [s.property.children]; rfl
  simp only [closedStep, adding, marked, numbered, hns]
  refine (settle_eq _ ?_ ns outcome).trans ?_
  · exact s.property.exception
  · simp only [bracketHead, s.property.failed, Bool.false_or]

/-- closing a bracket that stands in the open step `p` -/
theorem closeStep_nested (r : Recorder) (s : FreshStep) (b : Bool) (ns : List Node) (p : Step) (outer : List Step)
    (ho : r.openSteps = adding (marked b s.val) ns :: (p :: outer).map (marked b)) (outcome : Option Failure) :
    r.closeStep outcome =
      recorded r p outer (outcome.isSome || b)
        [if ns.isEmpty then
          .action (Step.mk (bracketHead s (outcome.isSome || b) ns outcome r.now none) ns).toAction
        else .step (bracketHead s (outcome.isSome || b) ns outcome r.now none) ns] r.now := by
  have hclosed := closedStep_bracket s none b ns outcome r.now
  rw [numbered_none] at hclosed
  rw [closeStep_cons r _ _ ho, hclosed, map_marked_map]
  have hb : (b || (bracketHead s (outcome.isSome || b) ns outcome r.now none).failed) = (outcome.isSome || b) := by
    cases b <;> simp [bracketHead]
  simp only [hb, List.map_cons]
  rw [attach_cons _ _ _ rfl]
  simp only [recorded, closedNode, List.isEmpty_cons, Bool.not_false, Bool.true_and, Step.toNode]

/-! ## Scripts on the stack -/

theorem node_bracket (s : FreshStep) (inner : List Event) (outcome : Option Failure) (closed : Timestamp) :
    (Event.bracket s inner outcome closed).node =
      if (nodes inner).isEmpty then
        .action (Step.mk (bracketHead s (outcome.isSome || anyFails inner) (nodes inner) outcome closed none)
          (nodes inner)).toAction
      else
        .step (bracketHead s (outcome.isSome || anyFails inner) (nodes inner) outcome closed none) (nodes inner) := by
  cases inner with
  | nil => simp [Event.node, nodes, anyFails, Node.anyException, bracketHead, Step.toAction]
  | cons e es => simp [Event.node, nodes]

theorem recorded_recorded (r : Recorder) (p : Step) (outer : List Step) (a b : Bool) (ns ms : List Node)
    (now later : Timestamp) :
    recorded (recorded r p outer a ns now) (adding (marked a p) ns) (outer.map (marked a)) b ms later =
      recorded r p outer (a || b) (ns ++ ms) later := by
  simp only [recorded, marked_adding, adding_adding, marked_marked, map_marked_map]

mutual

theorem run_acts (e : Event) (r : Recorder) (marks : List Checkpoint) (hs : r.secrets = []) (p : Step)
    (outer : List Step) (ho : r.openSteps = p :: outer) :
    ∃ now, Tape.run ⟨r, marks⟩ e.acts = ⟨recorded r p outer e.fails [e.node] now, marks⟩ := by
  cases e with
  | action a =>
    refine ⟨r.now, ?_⟩
    simp only [Event.acts, Event.fails, Event.node, Tape.run_cons, Tape.run_nil, Tape.step, apply,
      recordAction_nested r hs p outer ho]
  | message text level time =>
    refine ⟨time, ?_⟩
    simp only [Event.acts, Event.fails, Event.node, Tape.run_cons, Tape.run_nil, Tape.step, apply]
    rw [recordMessage_nested (r.moveTo time) hs p outer ho]
    rfl
  | bracket s inner outcome closed =>
    refine ⟨closed, ?_⟩
    obtain ⟨now, hinner⟩ := run_actsAll inner (r.openStep s.val) marks
      (by rw [openStep_nested r hs p outer ho]; exact hs) s.val (p :: outer) (by rw [openStep_nested r hs p outer ho])
    simp only [Event.acts, Tape.run_cons, Tape.run_append, Tape.run_nil, Tape.step, apply]
    rw [hinner, closeStep_nested _ s (anyFails inner) (nodes inner) p outer rfl, openStep_nested r hs p outer ho]
    rw [Event.fails, node_bracket]
    rfl

theorem run_actsAll (es : List Event) (r : Recorder) (marks : List Checkpoint) (hs : r.secrets = []) (p : Step)
    (outer : List Step) (ho : r.openSteps = p :: outer) :
    ∃ now, Tape.run ⟨r, marks⟩ (actsAll es) = ⟨recorded r p outer (anyFails es) (nodes es) now, marks⟩ := by
  cases es with
  | nil =>
    refine ⟨r.now, ?_⟩
    simp [actsAll, anyFails, nodes, Tape.run_nil, recorded, marked_false, adding, ← ho]
  | cons e es =>
    obtain ⟨now, he⟩ := run_acts e r marks hs p outer ho
    obtain ⟨later, hes⟩ := run_actsAll es (recorded r p outer e.fails [e.node] now) marks hs _ _ rfl
    refine ⟨later, ?_⟩
    rw [actsAll, Tape.run_append, he, hes, recorded_recorded]
    rfl

end

/-! ## Scripts on an empty stack -/

theorem openStep_root (r : Recorder) (hs : r.secrets = []) (ho : r.openSteps = []) (s : Step) :
    r.openStep s =
      { r with openSteps := [numbered s (some r.rootPositions)], rootPositions := r.rootPositions + 1 } := by
  unfold openStep
  rw [ho, masked_of_no_secrets r hs]
  rfl

theorem closeStep_root (r : Recorder) (s : FreshStep) (n : Nat) (b : Bool) (ns : List Node)
    (ho : r.openSteps = [adding (marked b (numbered s.val (some n))) ns]) (outcome : Option Failure) :
    r.closeStep outcome =
      { r with
        openSteps := []
        roots := r.roots ++ [.step (bracketHead s (outcome.isSome || b) ns outcome r.now (some n)) ns] } := by
  rw [closeStep_cons r _ [] ho, closedStep_bracket, List.map_nil, attach_nil _ rfl]
  rfl

/-- the recorder when nothing is open and nodes were recorded as roots -/
def grownRoots (r : Recorder) (ns : List Node) (brackets : Nat) (now : Timestamp) : Recorder :=
  { r with roots := r.roots ++ ns, rootPositions := r.rootPositions + brackets, now := now }

theorem run_acts_root (e : Event) (r : Recorder) (marks : List Checkpoint) (hs : r.secrets = [])
    (ho : r.openSteps = []) :
    ∃ now, Tape.run ⟨r, marks⟩ e.acts =
      ⟨grownRoots r (forest r.rootPositions [e]) (rootBrackets [e]) now, marks⟩ := by
  cases e with
  | action a =>
    refine ⟨r.now, ?_⟩
    simp only [Event.acts, Tape.run_cons, Tape.run_nil, Tape.step, apply]
    rw [recordAction_eq, masked_of_no_secrets r hs, ho, List.map_nil, attach_nil _ rfl, ← ho]
    rfl
  | message text level time =>
    refine ⟨time, ?_⟩
    simp only [Event.acts, Tape.run_cons, Tape.run_nil, Tape.step, apply]
    unfold recordMessage
    rw [masked_of_no_secrets (r.moveTo time) hs, attach_nil (r.moveTo time) ho]
    rfl
  | bracket s inner outcome closed =>
    refine ⟨closed, ?_⟩
    obtain ⟨now, hinner⟩ := run_actsAll inner (r.openStep s.val) marks
      (by rw [openStep_root r hs ho]; exact hs) _ [] (by rw [openStep_root r hs ho])
    simp only [Event.acts, Tape.run_cons, Tape.run_append, Tape.run_nil, Tape.step, apply]
    rw [hinner, closeStep_root _ s r.rootPositions (anyFails inner) (nodes inner) rfl, openStep_root r hs ho, ← ho]
    rfl

theorem forest_cons (n : Nat) (e : Event) (es : List Event) :
    forest n (e :: es) = forest n [e] ++ forest (n + rootBrackets [e]) es := by
  cases e <;> rfl

theorem rootBrackets_cons (e : Event) (es : List Event) :
    rootBrackets (e :: es) = rootBrackets [e] + rootBrackets es := by
  cases e <;> simp [rootBrackets, Nat.add_comm]

theorem run_actsAll_root (es : List Event) (r : Recorder) (marks : List Checkpoint) (hs : r.secrets = [])
    (ho : r.openSteps = []) :
    ∃ now, Tape.run ⟨r, marks⟩ (actsAll es) =
      ⟨grownRoots r (forest r.rootPositions es) (rootBrackets es) now, marks⟩ := by
  induction es generalizing r with
  | nil => exact ⟨r.now, by simp [actsAll, Tape.run_nil, forest, rootBrackets, grownRoots]⟩
  | cons e es ih =>
    obtain ⟨now, he⟩ := run_acts_root e r marks hs ho
    obtain ⟨later, hes⟩ := ih (grownRoots r (forest r.rootPositions [e]) (rootBrackets [e]) now) hs ho
    refine ⟨later, ?_⟩
    rw [actsAll, Tape.run_append, he, hes, forest_cons _ e es, rootBrackets_cons e es]
    simp only [grownRoots, List.append_assoc, Nat.add_assoc]

/-- **Recording on a stack is recursive tree building.** A well-nested script, played on the recorder of a new test,
leaves no step open, and the roots are the translation of the script by recursion, numbered from 0 on. -/
theorem roots_eq_forest (maskEnabled : Bool) (now : Timestamp) (script : List Event) :
    let r := (Tape.run ⟨fresh maskEnabled now, []⟩ (actsAll script)).recorder
    r.openSteps = [] ∧ r.roots = forest 0 script ∧ r.rootPositions = rootBrackets script := by
  obtain ⟨later, h⟩ := run_actsAll_root script (fresh maskEnabled now) [] rfl rfl
  rw [h]
  exact ⟨rfl, List.nil_append _, Nat.zero_add _⟩

end TestTrail.Recorder
