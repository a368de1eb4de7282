/-
One call, one node.

A script is code of a test that makes calls. It sees every answer and the whole state of the test before it goes on, it
may keep something for itself, and it may go on after a failure. The calls are steps around further scripts, driver
commands, and composites, so that scripts and calls are one tree.

Whatever a script does, the record has gained some nodes, and the same steps are open (`Script.run_gains`). So each
attempt of a replay starts from the record as it was before the first one, and the last attempt is all that shows
(`execute_last`). `one_node_per_call` puts it together: a call with a step of its own leaves one node, which holds what
its last attempt recorded and the warning of a replay that gave up; a driver command leaves an action and this warning.
-/
import TestTrail.Proofs.Calls.Recording
import TestTrail.Proofs.Recorder.Gaining

namespace TestTrail

open Recorder

variable {σ α : Type}

/-! ## Scripts -/

mutual

/-- code that makes calls -/
inductive Script (σ : Type) where
  | done (answer : Except Failure String)
  /-- looks at the test and keeps something for itself -/
  | think (remember : TestRun σ → σ) (next : TestRun σ → Script σ)
  | call (q : ScriptCall σ) (next : Except Failure String → Script σ)

/-- a call that code makes -/
inductive ScriptCall (σ : Type) where
  /-- an operation around further calls -/
  | step (i : Invocation) (body : Script σ)
  /-- an operation that is one driver command -/
  | action (i : Invocation) (command : String)
  | composite (c : Composite)

end

/-- goes on with the answer of a call; a crash is the end -/
def goOn (p : Outcome String × TestRun σ) (next : Except Failure String → Body σ String) : Outcome String × TestRun σ :=
  match p with
  | (.ok a, r) => next (.ok a) r
  | (.failed f, r) => next (.error f) r
  | (.crashed c, r) => (.crashed c, r)

mutual

def Script.run : Script σ → Body σ String
  | .done answer, r => (Outcome.ofExcept answer, r)
  | .think remember next, r => (next r).run { r with own := remember r }
  | .call q next, r => goOn (q.run r) fun answer => (next answer).run

def ScriptCall.run : ScriptCall σ → Body σ String
  | .step i body, r => r.intercept i fun r => body.run r
  | .action i command, r => r.perform i command
  | .composite c, r =>
    let (outcome, r) := r.performComposite c
    (outcome.map fun _ => "", r)

end

/-- the record has gained some nodes, whatever was discarded -/
def Gains (s : Recorder) (_ : List Discard) (_ : Bool) (r : Recorder) : Prop := ∃ ns now, r = s.gained ns now

theorem Gains.trans {s t r : Recorder} {ds es fs : List Discard} {a b c : Bool} (h : Gains s ds a t)
    (k : Gains t es b r) : Gains s fs c r := by
  obtain ⟨ns, now, rfl⟩ := h
  obtain ⟨ms, later, rfl⟩ := k
  exact ⟨ns ++ ms, later, gained_gained s ns ms now later⟩

theorem gains_respected : Respected Gains where
  moved s time _ := ⟨[], time, (gained_nil s time).symm⟩
  action h a _ := by
    obtain ⟨ns, now, rfl⟩ := h
    exact ⟨_, now, recordAction_gained _ ns now a⟩
  message h text level := by
    obtain ⟨ns, now, rfl⟩ := h
    exact ⟨_, now, recordMessage_gained _ ns now text level⟩
  bracket h hx outcome _ := by
    obtain ⟨ns, now, rfl⟩ := h
    exact ⟨_, now, closeStep_gained _ ⟨_, hx⟩ ns now outcome⟩
  append h k := h.trans k
  failed h _ := h
  discard h := by
    obtain ⟨ns, now, rfl⟩ := h
    exact ⟨[], now, rollback_gained _ ns now⟩

mutual

theorem Script.run_gains (s : Script σ) : Obeys Gains s.run TestRun.nothing := by
  cases s with
  | done answer => exact fun r => gains_respected.refl r.recorder true
  | think remember next => exact fun r => (next r).run_gains { r with own := remember r }
  | call q next =>
    intro r
    have hq := q.run_gains r
    rw [Script.run]
    rcases hr : q.run r with ⟨a | f | c, after⟩
    · rw [hr] at hq
      exact hq.trans ((next (.ok a)).run_gains after)
    · rw [hr] at hq
      exact hq.trans ((next (.error f)).run_gains after)
    · rw [hr] at hq
      exact hq

theorem ScriptCall.run_gains (q : ScriptCall σ) : Obeys Gains q.run TestRun.nothing := by
  cases q with
  | step i body => exact TestRun.obeys_intercept gains_respected i body.run_gains
  | action i command =>
    exact TestRun.obeys_intercept gains_respected i (obeys_of_moveTo gains_respected (TestRun.moves_command _ _ _))
  | composite c => exact TestRun.obeys_performComposite gains_respected c

end

/-! ## The last attempt -/

/-- the code came back, with a value or a failure -/
def Outcome.returned : Outcome α → Bool
  | .crashed _ => false
  | _ => true

namespace TestRun

theorem returned_command (name : String) (element : Option Element) (args : List String) (r : TestRun σ) :
    (command name element args r).1.returned = true := by
  unfold command
  split
  · rfl
  · rename_i driver hdriver
    rcases driver.execute name element args with ⟨f | answer, next⟩ <;> rfl

theorem returned_commands (ps : List Primitive) (r : TestRun σ) : (commands ps r).1.returned = true := by
  induction ps generalizing r with
  | nil => rfl
  | cons p ps ih =>
    have hreturned := returned_command p.command p.element p.args r
    rw [commands]
    rcases hp : command p.command p.element p.args r with ⟨answer | f | c, after⟩
    · exact ih after
    · rfl
    · rw [hp] at hreturned
      cases hreturned

theorem returned_unit (ps : List Primitive) (r : TestRun σ) : (unit ps r).1.returned = true := by
  unfold unit
  split
  · rfl
  · exact returned_commands ps r

end TestRun

namespace Replay

variable {e : Replay} {deadline : Nat} {frame : Option String} {body : Body σ α}

/-- the test when the last attempt begins -/
def lastFrom (e : Replay) (deadline : Nat) (frame : Option String) (body : Body σ α) : Nat → TestRun σ → TestRun σ
  | 0, r => r
  | fuel + 1, r =>
    match next? e deadline frame body r with
    | some next => lastFrom e deadline frame body fuel next
    | none => r

def lastStart (e : Replay) (frame : Option String) (body : Body σ α) (r : TestRun σ) : TestRun σ :=
  lastFrom e (r.clock.now + e.timeout) frame body attemptLimit { r with clock := r.clock.afterReading }

/-- a replay that comes back ends as its last attempt does, and shows what that attempt recorded -/
theorem attemptsFrom_eq_last {fuel done : Nat} {r : TestRun σ}
    (h : (attemptsFrom e deadline frame body fuel done r).1.result.returned = true) :
    (attemptsFrom e deadline frame body fuel done r).1.result =
        (attempt frame body (lastFrom e deadline frame body fuel r)).1 ∧
      (attemptsFrom e deadline frame body fuel done r).2.recorder =
        (attempt frame body (lastFrom e deadline frame body fuel r)).2.recorder := by
  induction fuel generalizing done r with
  | zero => cases h
  | succ fuel ih =>
    rw [lastFrom]
    cases hnext : next? e deadline frame body r with
    | none => exact attemptsFrom_of_last hnext fuel done
    | some next =>
      rw [attemptsFrom_of_next hnext] at h ⊢
      exact ih h

/-- nothing is left of the attempts before the last one -/
theorem moves_lastFrom (h : Obeys Gains body TestRun.nothing) (fuel : Nat) (r : TestRun σ) :
    ∃ now, (lastFrom e deadline frame body fuel r).recorder = r.recorder.moveTo now := by
  have hattempts : Obeys Gains (attempt frame body) _ := obeys_attempt gains_respected h
  induction fuel generalizing r with
  | zero => exact ⟨r.recorder.now, rfl⟩
  | succ fuel ih =>
    rw [lastFrom]
    cases hnext : next? e deadline frame body r with
    | none => exact ⟨r.recorder.now, rfl⟩
    | some next =>
      obtain ⟨-, now, hback⟩ := recorder_next hnext
      obtain ⟨ns, before, hattempt⟩ := hattempts r
      obtain ⟨later, hlater⟩ := ih next
      refine ⟨later, ?_⟩
      rw [hlater, hback, hattempt, rollback_gained, gained_nil]
      rfl

end Replay

namespace TestRun

variable {op : Operation} {frame : Option String} {body : Body σ α}

/-- one attempt of a call; a replayed one goes to its frame first -/
def attemptOf (op : Operation) (frame : Option String) (body : Body σ α) : Body σ α :=
  if op.replay then Replay.attempt frame body else body

/-- the test when the last attempt of a call begins -/
def lastStart (op : Operation) (frame : Option String) (body : Body σ α) (r : TestRun σ) : TestRun σ :=
  if op.replay then (Replay.ofSettings r.settings).lastStart frame body r else r

/-- the last attempt started from the record as it was at the beginning, recorded `ns`, and ended the call -/
structure LastAttempt (op : Operation) (frame : Option String) (body : Body σ α) (r : TestRun σ)
    (outcome : Outcome α) (ns : List Node) : Prop where
  start : ∃ now, (lastStart op frame body r).recorder = r.recorder.moveTo now
  outcome : (attemptOf op frame body (lastStart op frame body r)).1 = outcome
  nodes : ∃ now, (attemptOf op frame body (lastStart op frame body r)).2.recorder =
    (lastStart op frame body r).recorder.gained ns now

/-- a call that comes back ends as its last attempt does, and shows what that attempt recorded -/
theorem execute_eq_last {r : TestRun σ} (h : (execute op frame body r).1.1.returned = true) :
    (execute op frame body r).1.1 = (attemptOf op frame body (lastStart op frame body r)).1 ∧
      (execute op frame body r).2.recorder = (attemptOf op frame body (lastStart op frame body r)).2.recorder := by
  unfold attemptOf lastStart
  by_cases hreplay : op.replay = true
  · rw [execute_replay hreplay, answerOf_result] at h ⊢
    rw [answerOf_run, if_pos hreplay, if_pos hreplay]
    by_cases hlimit : Replay.clockLimit ≤ r.clock.now + (Replay.ofSettings r.settings).timeout
    · rw [Replay.run_of_overflow hlimit] at h
      cases h
    · rw [Replay.run_of_fits hlimit] at h ⊢
      unfold Replay.lastStart
      generalize Replay.attemptLimit = fuel at h ⊢
      exact Replay.attemptsFrom_eq_last h
  · rw [execute_once hreplay, if_neg hreplay, if_neg hreplay]
    exact ⟨rfl, rfl⟩

theorem moves_lastStart (h : Obeys Gains body nothing) (op : Operation) (frame : Option String) (r : TestRun σ) :
    ∃ now, (lastStart op frame body r).recorder = r.recorder.moveTo now := by
  unfold lastStart
  split
  · exact Replay.moves_lastFrom h _ { r with clock := r.clock.afterReading }
  · exact ⟨r.recorder.now, rfl⟩

theorem gains_attemptOf (h : Obeys Gains body nothing) (op : Operation) (frame : Option String) (r : TestRun σ) :
    ∃ ns now, (attemptOf op frame body r).2.recorder = r.recorder.gained ns now := by
  unfold attemptOf
  split
  · exact obeys_attempt gains_respected h r
  · exact h r

/-- **Only the last attempt shows**: the record has gained the nodes of this attempt. -/
theorem execute_last (h : Obeys Gains body nothing) {r : TestRun σ}
    (hreturned : (execute op frame body r).1.1.returned = true) :
    ∃ ns now, LastAttempt op frame body r (execute op frame body r).1.1 ns ∧
      (execute op frame body r).2.recorder = r.recorder.gained ns now := by
  obtain ⟨houtcome, hrecorder⟩ := execute_eq_last hreturned
  obtain ⟨before, hstart⟩ := moves_lastStart h op frame r
  obtain ⟨ns, now, hnodes⟩ := gains_attemptOf h op frame (lastStart op frame body r)
  refine ⟨ns, now, ⟨⟨before, hstart⟩, houtcome.symm, now, hnodes⟩, ?_⟩
  rw [hrecorder, hnodes, hstart, ← gained_nil, gained_gained]
  rfl

theorem moves_attemptOf (h : ∀ r, ∃ now, (body r).2.recorder = r.recorder.moveTo now) (op : Operation)
    (frame : Option String) (r : TestRun σ) :
    ∃ now, (attemptOf op frame body r).2.recorder = r.recorder.moveTo now := by
  unfold attemptOf
  split
  · have hsame := Replay.recorder_restoreFrame frame r
    rcases Replay.attempt_eq frame body r with ⟨f, hf⟩ | hbody
    · rw [hf]
      exact ⟨r.recorder.now, hsame⟩
    · rw [hbody, ← hsame]
      exact h _
  · exact h r

/-- a body that records nothing has nothing to show, however often it is tried -/
theorem moves_execute (h : ∀ r, ∃ now, (body r).2.recorder = r.recorder.moveTo now) {r : TestRun σ}
    (hreturned : (execute op frame body r).1.1.returned = true) :
    ∃ now, (execute op frame body r).2.recorder = r.recorder.moveTo now := by
  obtain ⟨-, hrecorder⟩ := execute_eq_last hreturned
  obtain ⟨before, hstart⟩ := moves_lastStart (obeys_of_moveTo gains_respected h) op frame r
  obtain ⟨now, hmoves⟩ := moves_attemptOf h op frame (lastStart op frame body r)
  refine ⟨now, ?_⟩
  rw [hrecorder, hmoves, hstart]
  rfl

end TestRun

/-! ## What a call leaves -/

/-- one warning, or nothing -/
def Warning (ns : List Node) : Prop := ns = [] ∨ ∃ m : Message, ns = [.message m] ∧ m.level = .warning

namespace TestRun

/-- the warning of a call as it is recorded, if there is one -/
def warningNodes (s : Recorder) (warning : Option String) (now : Timestamp) : List Node :=
  match warning with
  | some text => [.message ⟨s.masked text, .warning, now⟩]
  | none => []

theorem warning_warningNodes (s : Recorder) (warning : Option String) (now : Timestamp) :
    Warning (warningNodes s warning now) := by
  cases warning with
  | none => exact Or.inl rfl
  | some text => exact Or.inr ⟨_, rfl, rfl⟩

theorem warn_gained {s : Recorder} {ns : List Node} {now : Timestamp} {r : TestRun σ}
    (h : r.recorder = s.gained ns now) (warning : Option String) :
    (warn warning r).recorder = s.gained (ns ++ warningNodes s warning now) now := by
  cases warning with
  | none => rw [warningNodes, List.append_nil]; exact h
  | some text =>
    rw [warningNodes, ← recordMessage_gained, ← h]
    rfl

theorem masked_openStep (s : Recorder) (x : Step) : (s.openStep x).masked = s.masked := by
  unfold openStep
  split
  · rfl
  · rfl

/-- the end of a call inside its step: the step is one node -/
theorem closing_gained {s : Recorder} {x : FreshStep} {ns : List Node} {now : Timestamp}
    {p : (Outcome α × Option String) × TestRun σ} (h : p.2.recorder = (s.openStep x.val).gained ns now) :
    (closing p).2.recorder = s.gained [stepNode s x (ns ++ warningNodes s p.1.2 now) p.1.1.failure? now] now := by
  have hwarn := warn_gained h p.1.2
  have hsame : warningNodes (s.openStep x.val) p.1.2 now = warningNodes s p.1.2 now := by
    unfold warningNodes
    rw [masked_openStep]
  rw [hsame] at hwarn
  rw [← closeStep_gained, ← hwarn]
  rfl

/-- the node of an action, with its name as it is recorded -/
def actionNode (s : Recorder) (a : Action) : Node := .action { a with name := s.masked a.name }

theorem actionNode_openStep (s : Recorder) (x : Step) (a : Action) : actionNode (s.openStep x) a = actionNode s a := by
  unfold actionNode
  rw [masked_openStep]

/-- the end of a call that is an action -/
theorem acting_gained {s : Recorder} {now : Timestamp} {p : (Outcome α × Option String) × TestRun σ}
    (h : p.2.recorder = s.moveTo now) (name : String) (op : Operation) (i : Invocation) :
    (acting name op i p).2.recorder =
      s.gained (actionNode s (actionOf name op i p.1.1 now) :: warningNodes s p.1.2 now) now := by
  have haction : (p.2.record fun rec => rec.recordAction (actionOf name op i p.1.1 p.2.recorder.now)).recorder =
      s.gained [actionNode s (actionOf name op i p.1.1 now)] now := by
    change p.2.recorder.recordAction (actionOf name op i p.1.1 p.2.recorder.now) = _
    rw [h, ← gained_nil, recordAction_gained, now_gained]
    rfl
  exact warn_gained haction p.1.2

theorem recordPrimitives_gained {s : Recorder} {now : Timestamp} {p : (Outcome α × Option String) × TestRun σ}
    (h : p.2.recorder = s.moveTo now) (c : Composite) :
    (recordPrimitives c p).2.recorder =
      s.gained (c.primitives.map fun x => actionNode s (primitiveAction c p.1.1 now x)) now := by
  have hactions : ∀ (f : Primitive → Action) (ps : List Primitive) (ns : List Node),
      ps.foldl (fun rec x => rec.recordAction (f x)) (s.gained ns now) =
        s.gained (ns ++ ps.map fun x => actionNode s (f x)) now := by
    intro f ps
    induction ps with
    | nil => exact fun ns => by rw [List.map_nil, List.append_nil]; rfl
    | cons x ps ih =>
      intro ns
      rw [List.foldl_cons, recordAction_gained, ih, List.map_cons, List.append_assoc]
      rfl
  change c.primitives.foldl (fun rec x => rec.recordAction (primitiveAction c p.1.1 p.2.recorder.now x))
    p.2.recorder = _
  rw [h, ← gained_nil, now_gained]
  exact hactions _ c.primitives []

/-- the code of a composite, inside its step -/
def unitOf (c : Composite) (r : TestRun σ) : (Outcome Unit × Option String) × TestRun σ :=
  execute (compositeOperation c r) none (unit c.primitives) (r.record fun rec => rec.openStep (compositeStep c r))

/-- the node of a composite, from how its code ended -/
def compositeNode (c : Composite) (r : TestRun σ) (answer : Outcome Unit × Option String) (now : Timestamp) : Node :=
  stepNode r.recorder ⟨compositeStep c r, fresh_compositeStep c r⟩
    ((c.primitives.map fun p => actionNode r.recorder (primitiveAction c answer.1 now p)) ++
      warningNodes r.recorder answer.2 now) answer.1.failure? now

/-- a composite that comes back is one node -/
theorem performComposite_gained (c : Composite) {r : TestRun σ}
    (hreturned : (performComposite c r).1.returned = true) :
    ∃ now, (performComposite c r).2.recorder = r.recorder.gained [compositeNode c r (unitOf c r).1 now] now := by
  have hunit : ∀ t : TestRun σ, ∃ now, (unit c.primitives t).2.recorder = t.recorder.moveTo now :=
    moves_unit c.primitives
  obtain ⟨now, hmoves⟩ := moves_execute hunit hreturned
  have hclosed := closing_gained (x := ⟨_, fresh_compositeStep c r⟩) (recordPrimitives_gained hmoves c)
  have hactions : (c.primitives.map fun p => actionNode (r.recorder.openStep (compositeStep c r))
      (primitiveAction c (unitOf c r).1.1 now p)) =
      c.primitives.map fun p => actionNode r.recorder (primitiveAction c (unitOf c r).1.1 now p) :=
    List.map_congr_left fun p _ => actionNode_openStep r.recorder _ _
  refine ⟨now, ?_⟩
  rw [performComposite_eq, compositeNode, ← hactions]
  exact hclosed

end TestRun

namespace ScriptCall

open TestRun

/-- the operation is declared, and of the kind that the call is for -/
def Declared (registry : Registry) : ScriptCall σ → Prop
  | .step i _ => ∃ op, registry.get? i.operation = some op ∧ op.kind ≠ .action
  | .action i _ => ∃ op, registry.get? i.operation = some op ∧ op.kind = .action
  | .composite _ => True

/-- the nodes of a call that was made in `r` and came back at the time `now` -/
def Leaves (r : TestRun σ) (outcome : Outcome String) (now : Timestamp) (ns : List Node) : ScriptCall σ → Prop
  | .step i body =>
    ∃ op ms w, r.registry.get? i.operation = some op ∧
      LastAttempt op i.frame body.run (r.record fun rec => rec.openStep (r.stepOf op i)) outcome ms ∧ Warning w ∧
      ns = [stepNode r.recorder ⟨r.stepOf op i, fresh_stepOf r op i⟩ (ms ++ w) outcome.failure? now]
  | .action i _ =>
    ∃ op w, r.registry.get? i.operation = some op ∧ Warning w ∧
      ns = actionNode r.recorder (actionOf (r.actionName op i) op i outcome now) :: w
  | .composite c =>
    ∃ w, Warning w ∧
      ns = [stepNode r.recorder ⟨compositeStep c r, fresh_compositeStep c r⟩
        ((c.primitives.map fun p => actionNode r.recorder (primitiveAction c outcome now p)) ++ w)
        outcome.failure? now]

/-- the call has added nodes to the record, and they are those of the call -/
def LeavesItsNodes (q : ScriptCall σ) (r : TestRun σ) : Prop :=
  ∃ ns now, (q.run r).2.recorder = r.recorder.gained ns now ∧ q.Leaves r (q.run r).1 now ns

theorem step_leaves {r : TestRun σ} (hmanual : r.settings.manualTestSteps = false) {i : Invocation} {op : Operation}
    (hop : r.registry.get? i.operation = some op) (hk : op.kind ≠ .action) (body : Script σ)
    (hreturned : ((step i body).run r).1.returned = true) : (step i body).LeavesItsNodes r := by
  have hrun : (step i body).run r =
      closing (execute op i.frame body.run (r.record fun rec => rec.openStep (r.stepOf op i))) := by
    refine (intercept_step hop hk body.run).trans (interceptStep_eq op i body.run ?_)
    rw [hmanual]
    exact Bool.false_ne_true
  unfold LeavesItsNodes
  rw [hrun] at hreturned ⊢
  obtain ⟨ms, now, hlast, hrecorder⟩ := execute_last body.run_gains hreturned
  have hclosed := closing_gained (x := ⟨_, fresh_stepOf r op i⟩) hrecorder
  exact ⟨_, now, hclosed, op, ms, _, hop, hlast, warning_warningNodes _ _ _, rfl⟩

theorem action_leaves {r : TestRun σ} {i : Invocation} {op : Operation}
    (hop : r.registry.get? i.operation = some op) (hk : op.kind = .action) (command : String)
    (hreturned : ((action i command).run r).1.returned = true) :
    (action i command : ScriptCall σ).LeavesItsNodes r := by
  have hrun : (action i command).run r =
      acting (r.actionName op i) op i
        (execute op i.frame (TestRun.command command i.element i.driverArgs) r) :=
    intercept_action hop hk _
  unfold LeavesItsNodes
  rw [hrun] at hreturned ⊢
  obtain ⟨now, hmoves⟩ := moves_execute (moves_command command i.element i.driverArgs) hreturned
  have hacted := acting_gained hmoves (r.actionName op i) op i
  exact ⟨_, now, hacted, op, _, hop, warning_warningNodes _ _ _, rfl⟩

theorem failure?_map (f : α → String) (outcome : Outcome α) : (outcome.map f).failure? = outcome.failure? := by
  cases outcome with
  | _ => rfl

theorem returned_map (f : α → String) (outcome : Outcome α) : (outcome.map f).returned = outcome.returned := by
  cases outcome with
  | _ => rfl

theorem composite_leaves {r : TestRun σ} (c : Composite)
    (hreturned : ((composite c : ScriptCall σ).run r).1.returned = true) :
    (composite c : ScriptCall σ).LeavesItsNodes r := by
  have hrun : (composite c).run r = ((performComposite c r).1.map fun _ => "", (performComposite c r).2) := rfl
  unfold LeavesItsNodes
  rw [hrun] at hreturned ⊢
  rw [returned_map] at hreturned
  obtain ⟨now, hgained⟩ := performComposite_gained c hreturned
  refine ⟨_, now, hgained, warningNodes r.recorder (unitOf c r).1.2 now, warning_warningNodes _ _ now, ?_⟩
  unfold compositeNode primitiveAction
  rw [failure?_map]
  rfl

/-- **One call, one node.** With steps recorded automatically, a call that comes back, with a value or a failure, has
added to the innermost open step, or to the roots, exactly its own nodes, and has left open what was open. These are one
node for a step or a composite, and an action with at most one warning for a driver command. The node of a step holds
what the last attempt of its script recorded, and at most one warning. -/
theorem one_node_per_call (q : ScriptCall σ) (r : TestRun σ) (hmanual : r.settings.manualTestSteps = false)
    (hdeclared : q.Declared r.registry) (hreturned : (q.run r).1.returned = true) :
    ∃ ns now, (q.run r).2.recorder = r.recorder.gained ns now ∧ q.Leaves r (q.run r).1 now ns := by
  cases q with
  | step i body =>
    obtain ⟨op, hop, hk⟩ := hdeclared
    exact step_leaves hmanual hop hk body hreturned
  | action i command =>
    obtain ⟨op, hop, hk⟩ := hdeclared
    exact action_leaves hop hk command hreturned
  | composite c => exact composite_leaves c hreturned

/-- a test whose first click finds a stale element -/
def buying : TestRun Unit :=
  let declared : Registry := .ofList
    [{ id := "checkout", kind := .step, replay := true }, { id := "click", kind := .action, replay := false }]
  { TestRun.start "buy" {} declared (.steady 0) {} noon () with
    driver := some (Driver.failNext {} "click" 1 ⟨.stale, "click"⟩) }

/-- a checkout that is one click -/
def oneClick : ScriptCall Unit :=
  .step { operation := "checkout" } (.call (.action { operation := "click" } "click") .done)

/-- the checkout is tried twice, and its node has the second click only -/
theorem oneClick_leaves_one_node :
    ((oneClick.run buying).2.driver.map fun d => d.calls "click") = some 2 ∧
      ((oneClick.run buying).2.recorder.roots.map fun n => (n.failed, n.children.map Node.failed)) =
        [(false, [false])] ∧
      ∃ ns now, (oneClick.run buying).2.recorder = buying.recorder.gained ns now ∧
        oneClick.Leaves buying (oneClick.run buying).1 now ns :=
  ⟨by decide +kernel, by decide +kernel,
    one_node_per_call oneClick buying rfl ⟨_, rfl, by decide⟩ (by decide +kernel)⟩

end ScriptCall

end TestTrail
