/-
What the operations of a recorder do to its stack, in equations.

`marked b` is the failure mark that a step gets when `b` says that something inside it failed, `adding` the step with
further children. `closeStep_cons` is the one equation about closing: the innermost step is settled with its outcome,
the steps around it are marked when it failed, and its node goes to the innermost of them.
-/
import TestTrail.Recorder

namespace TestTrail.Recorder

open TestTrail.Text

/-! ## Marks -/

/-- a step that counts as failed when it did before or when `b` says so -/
def marked (b : Bool) (s : Step) : Step := { s with head := { s.head with failed := s.head.failed || b } }

def adding (s : Step) (ns : List Node) : Step := { s with children := s.children ++ ns }

theorem marked_false : marked false = id := by
  funext s; simp [marked]

theorem marked_true : marked true = Step.markFailed := by
  funext s; simp [marked, Step.markFailed]

theorem marked_marked (a b : Bool) (s : Step) : marked b (marked a s) = marked (a || b) s := by
  simp [marked, Bool.or_assoc]

theorem map_marked_map (a b : Bool) (steps : List Step) :
    (steps.map (marked a)).map (marked b) = steps.map (marked (a || b)) := by
  rw [List.map_map]
  exact List.map_congr_left fun s _ => marked_marked a b s

theorem map_markFailed_eq (b : Bool) (steps : List Step) :
    (if b then steps.map Step.markFailed else steps) = steps.map (marked b) := by
  cases b with
  | false => rw [marked_false, List.map_id]; rfl
  | true => rw [marked_true]; rfl

theorem adding_adding (s : Step) (ns ms : List Node) : adding (adding s ns) ms = adding s (ns ++ ms) := by
  simp [adding]

theorem marked_adding (b : Bool) (s : Step) (ns : List Node) : marked b (adding s ns) = adding (marked b s) ns := rfl

/-! ## Operations -/

/-- the recorder at another time -/
def moveTo (r : Recorder) (time : Timestamp) : Recorder := { r with now := time }

theorem masked_of_no_secrets (r : Recorder) (hs : r.secrets = []) (text : String) : r.masked text = text := by
  simp [masked, hs, maskWhen, mask, maskChars_nil]

theorem attach_nil (r : Recorder) (ho : r.openSteps = []) (n : Node) :
    r.attach n = { r with roots := r.roots ++ [n] } := by
  unfold attach; rw [ho]

theorem attach_cons (r : Recorder) (s : Step) (outer : List Step) (ho : r.openSteps = s :: outer) (n : Node) :
    r.attach n = { r with openSteps := adding s [n] :: outer } := by
  unfold attach; rw [ho]; rfl

/-- a step as it is once it has been opened: its name is masked, and it has a number if no step is around it -/
def opened (r : Recorder) (x : Step) : Step :=
  { x with
    head := { x.head with
      name := r.masked x.head.name
      position := if r.openSteps.isEmpty then some r.rootPositions else x.head.position } }

theorem openStep_eq (r : Recorder) (x : Step) :
    r.openStep x =
      { r with
        openSteps := opened r x :: r.openSteps
        rootPositions := if r.openSteps.isEmpty then r.rootPositions + 1 else r.rootPositions } := by
  unfold openStep opened
  cases r.openSteps with
  | nil => rfl
  | cons y outer => rfl

/-- a failure marks a step; of the rest it may change the exception only -/
theorem fail_eq (s : Step) (e : Option RecordedFailure) :
    s.fail e = { s with head := { s.head with failed := true, exception := (s.fail e).head.exception } } := by
  unfold Step.fail
  split
  · rfl
  · split
    · rfl
    · rfl

/-- a step as it is once it has been closed with an outcome -/
def closedStep (s : Step) (outcome : Option Failure) (now : Timestamp) : Step :=
  settle { s with head := { s.head with durationMs := s.head.startedAt.millisUntil now } } outcome

theorem closedNode_map (s : Step) (f : Step → Step) (outer : List Step) :
    closedNode s (outer.map f) = closedNode s outer := by
  cases outer <;> rfl

theorem closeStep_nil (r : Recorder) (ho : r.openSteps = []) (outcome : Option Failure) : r.closeStep outcome = r := by
  unfold closeStep; rw [ho]

theorem closeStep_cons (r : Recorder) (s : Step) (outer : List Step) (ho : r.openSteps = s :: outer)
    (outcome : Option Failure) :
    r.closeStep outcome =
      attach { r with openSteps := outer.map (marked (closedStep s outcome r.now).head.failed) }
        (closedNode (closedStep s outcome r.now) outer) := by
  unfold closeStep
  rw [ho]
  simp only [map_markFailed_eq, closedNode_map, closedStep]

theorem recordAction_eq (r : Recorder) (a : Action) :
    r.recordAction a =
      attach { r with openSteps := r.openSteps.map (marked a.failed) }
        (.action { a with name := r.masked a.name }) := by
  unfold recordAction
  cases a.failed with
  | false => simp [marked_false]
  | true => simp [failOpenSteps, marked_true]

/-- the secrets when a value that was accepted has been registered -/
def withSecret (secrets : List String) (value : String) : List String :=
  if secrets.contains value then secrets else secrets ++ [value]

/-- a step with its name masked once more -/
def remasked (secrets : List String) (s : Step) : Step :=
  { s with head := { s.head with name := mask secrets s.head.name } }

theorem addSecret_eq (r : Recorder) (value : String) :
    r.addSecret value =
      if acceptsSecret value then
        { r with
          secrets := withSecret r.secrets value
          openSteps :=
            if r.maskEnabled then r.openSteps.map (remasked (withSecret r.secrets value)) else r.openSteps }
      else r := rfl

theorem prefix_withSecret (secrets : List String) (value : String) : secrets <+: withSecret secrets value := by
  unfold withSecret
  split
  · exact List.prefix_refl _
  · exact List.prefix_append _ _

/-- a step with one more file -/
def filed (a : Attachment) (s : Step) : Step :=
  { s with head := { s.head with attachments := s.head.attachments ++ [a] } }

theorem attachFile_cons (r : Recorder) (s : Step) (outer : List Step) (ho : r.openSteps = s :: outer)
    (a : Attachment) : r.attachFile? a = some { r with openSteps := filed a s :: outer } := by
  unfold attachFile?
  rw [ho]
  rfl

/-- a file that finds a step goes to one step of the forest -/
theorem attachToLastStep_eq_some {a : Attachment} {ns ms : List Node} (h : attachToLastStep a ns = some ms) :
    ∃ before s after, ns = before ++ Step.toNode s :: after ∧ ms = before ++ Step.toNode (filed a s) :: after := by
  induction ns generalizing ms with
  | nil => cases h
  | cons n ns ih =>
    unfold attachToLastStep at h
    cases hlast : attachToLastStep a ns with
    | some ns' =>
      obtain ⟨before, s, after, rfl, rfl⟩ := ih hlast
      rw [hlast] at h
      exact ⟨n :: before, s, after, rfl, (Option.some.inj h).symm⟩
    | none =>
      rw [hlast] at h
      cases n with
      | step head children => exact ⟨[], ⟨head, children⟩, ns, rfl, (Option.some.inj h).symm⟩
      | action x => cases h
      | message m => cases h

/-- when no step is open, a file goes to a root step, or nowhere -/
theorem attachFile_nil {r t : Recorder} (ho : r.openSteps = []) {a : Attachment} (h : r.attachFile? a = some t) :
    ∃ before s after, r.roots = before ++ Step.toNode s :: after ∧
      t = { r with roots := before ++ Step.toNode (filed a s) :: after } := by
  unfold attachFile? at h
  rw [ho] at h
  obtain ⟨ms, hms, rfl⟩ := Option.map_eq_some_iff.1 h
  obtain ⟨before, s, after, hns, rfl⟩ := attachToLastStep_eq_some hms
  exact ⟨before, s, after, hns, by rw [ho]⟩

/-- a file goes to the innermost open step, or else to a root step, or nowhere -/
theorem attachFile_cases (r : Recorder) (a : Attachment) :
    (∃ x outer, r.openSteps = x :: outer ∧ r.attachFile a = { r with openSteps := filed a x :: outer }) ∨
      (∃ before s after, r.roots = before ++ Step.toNode s :: after ∧
        r.attachFile a = { r with roots := before ++ Step.toNode (filed a s) :: after }) ∨
      r.attachFile a = r := by
  unfold attachFile
  cases ho : r.openSteps with
  | cons x outer =>
    rw [attachFile_cons r x outer ho]
    exact Or.inl ⟨x, outer, rfl, rfl⟩
  | nil =>
    cases hfile : r.attachFile? a with
    | none => exact Or.inr (Or.inr rfl)
    | some t =>
      obtain ⟨before, s, after, hr, rfl⟩ := attachFile_nil ho hfile
      exact Or.inr (Or.inl ⟨before, s, after, hr, by rw [ho]; rfl⟩)

/-- what a close keeps, closing everything keeps -/
theorem closeAll_keeps {P : Recorder → Prop} (h : ∀ r, P r → P (r.closeStep none)) {r : Recorder} (hr : P r) :
    P r.closeAll := by
  have htimes : ∀ (n : Nat) (t : Recorder), P t → P (closeTimes n t) := by
    intro n
    induction n with
    | zero => exact fun _ ht => ht
    | succ n ih => exact fun t ht => ih _ (h t ht)
  exact htimes _ r hr

/-- closing with a failure: the exception stays below when one is there -/
theorem settle_eq (h : StepHead) (he : h.exception = none) (ns : List Node) (outcome : Option Failure) :
    settle ⟨h, ns⟩ outcome =
      ⟨{ h with failed := outcome.isSome || h.failed
                exception := if Node.anyException ns then none else outcome.map Failure.recorded }, ns⟩ := by
  cases outcome with
  | none => cases h; simp_all [settle]
  | some f =>
    cases hx : Node.anyException ns with
    | true => cases h; simp_all [settle, Step.fail, Step.hasException, Step.markFailed]
    | false => cases h; simp_all [settle, Step.fail, Step.hasException]

end TestTrail.Recorder
