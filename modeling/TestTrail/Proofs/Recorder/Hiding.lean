/-
A registered secret stays hidden.

From its registration on, a secret shows in no name and in no message that is recorded, nor in the name of a step that
is open. Names are masked at three moments: when a step is opened, when something is recorded, and once more when a
further secret comes up while the step is open.

To say which nodes are meant, the history is recorded a second time, with labels in place of names: what has been closed
by the registration is labelled `before`, the open steps and all that comes after are labelled `since`. No operation
looks at a name, so the two records have the same nodes at the same places (`Matched`). `secret_stays_hidden` says that
a name hides the secret wherever the label is not `before`; only the closing step keeps its fixed name.
-/
import TestTrail.Proofs.Recorder.Numbering
import TestTrail.Proofs.Text.Masking

namespace TestTrail

open TestTrail.Text Recorder

namespace Node

/-- the same nodes at the same places, and names that are related -/
inductive Matches (P : String → String → Prop) : Node → Node → Prop where
  | step {h k : StepHead} {cs ds : List Node} (name : P h.name k.name) (below : List.Forall₂ (Matches P) cs ds) :
      Matches P (.step h cs) (.step k ds)
  | action {a b : Action} (name : P a.name b.name) : Matches P (.action a) (.action b)
  | message {m o : Message} (text : P m.text o.text) : Matches P (.message m) (.message o)

mutual

/-- the node with a label in place of its name and of all names below it -/
def labelled (label : String) : Node → Node
  | step h cs => step { h with name := label } (labelledAll label cs)
  | action a => action { a with name := label }
  | message m => message { m with text := label }

def labelledAll (label : String) : List Node → List Node
  | [] => []
  | n :: ns => n.labelled label :: labelledAll label ns

end

mutual

theorem matches_labelled {P : String → String → Prop} {label : String} (hP : ∀ name, P label name) (n : Node) :
    Matches P (n.labelled label) n := by
  cases n with
  | step h cs => exact .step (hP h.name) (matches_labelledAll hP cs)
  | action a => exact .action (hP a.name)
  | message m => exact .message (hP m.text)

theorem matches_labelledAll {P : String → String → Prop} {label : String} (hP : ∀ name, P label name)
    (ns : List Node) : List.Forall₂ (Matches P) (labelledAll label ns) ns := by
  cases ns with
  | nil => exact .nil
  | cons n ns => exact .cons (matches_labelled hP n) (matches_labelledAll hP ns)

end

end Node

namespace Recorder

/-! ## Labels -/

/-- the label of what was closed by the registration -/
def before : String := "before"

/-- the label of what was open then, or has been recorded since -/
def since : String := "since"

def labelled (r : Recorder) : Recorder :=
  { r with
    roots := Node.labelledAll before r.roots
    openSteps := r.openSteps.map fun s => ⟨{ s.head with name := since }, Node.labelledAll before s.children⟩
    secrets := []
    maskEnabled := false }

/-- the operation with a label for what it records; children that a step comes with have not been recorded -/
def Op.labelled : Op → Op
  | .openStep s => .openStep ⟨{ s.head with name := since }, Node.labelledAll before s.children⟩
  | .recordAction a => .recordAction { a with name := since }
  | .recordMessage _ level => .recordMessage since level
  | .addStep _ => .addStep since
  | o => o

def Act.labelled : Act → Act
  | .op o => .op o.labelled
  | a => a

def Tape.labelled (t : Tape) : Tape := { t with recorder := t.recorder.labelled }

/-- what a secret demands of the name of a node with this label -/
def HiddenSince (value label name : String) : Prop :=
  label = before ∨ label = endName ∧ name = endName ∨ Hides value name

/-! ## Records that match -/

/-- a step of one stack and the step at its place on another -/
structure StepsMatch (P : String → String → Prop) (s t : Step) : Prop where
  name : P s.head.name t.head.name
  children : List.Forall₂ (Node.Matches P) s.children t.children

/-- the same nodes and the same open steps, and names that are related -/
structure Matched (P : String → String → Prop) (s r : Recorder) : Prop where
  roots : List.Forall₂ (Node.Matches P) s.roots r.roots
  steps : List.Forall₂ (StepsMatch P) s.openSteps r.openSteps

section

variable {P : String → String → Prop} {s r : Recorder} {x y : Step}

theorem StepsMatch.adding (h : StepsMatch P x y) {n m : Node} (hn : n.Matches P m) :
    StepsMatch P (adding x [n]) (adding y [m]) :=
  ⟨h.name, List.rel_append h.children (.cons hn .nil)⟩

theorem StepsMatch.closedStep (h : StepsMatch P x y) (outcome : Option Failure) (now later : Timestamp) :
    StepsMatch P (closedStep x outcome now) (closedStep y outcome later) := by
  have hsame : ∀ (z : Step) (time : Timestamp), (Recorder.closedStep z outcome time).head.name = z.head.name ∧
      (Recorder.closedStep z outcome time).children = z.children := by
    intro z time
    cases outcome with
    | none => exact ⟨rfl, rfl⟩
    | some f =>
      unfold Recorder.closedStep settle
      simp only
      rw [fail_eq]
      exact ⟨rfl, rfl⟩
  obtain ⟨hxn, hxc⟩ := hsame x now
  obtain ⟨hyn, hyc⟩ := hsame y later
  exact ⟨by rw [hxn, hyn]; exact h.name, by rw [hxc, hyc]; exact h.children⟩

theorem isEmpty_of_forall₂ {β γ : Type} {R : β → γ → Prop} {xs : List β} {ys : List γ} (h : List.Forall₂ R xs ys) :
    xs.isEmpty = ys.isEmpty := by
  cases h <;> rfl

/-- a step becomes an action on both sides, or on none -/
theorem StepsMatch.closedNode (h : StepsMatch P x y) {outer around : List Step}
    (ho : List.Forall₂ (StepsMatch P) outer around) : (closedNode x outer).Matches P (closedNode y around) := by
  unfold Recorder.closedNode
  rw [isEmpty_of_forall₂ ho, isEmpty_of_forall₂ h.children]
  split
  · exact .action h.name
  · exact .step h.name h.children

/-- nothing is open on both sides, or a step on each -/
theorem Matched.stacks (h : Matched P s r) :
    (s.openSteps = [] ∧ r.openSteps = []) ∨
      ∃ x outer y around, s.openSteps = x :: outer ∧ r.openSteps = y :: around ∧ StepsMatch P x y ∧
        List.Forall₂ (StepsMatch P) outer around := by
  obtain ⟨-, hsteps⟩ := h
  generalize s.openSteps = xs at *
  generalize r.openSteps = ys at *
  cases hsteps with
  | nil => exact Or.inl ⟨rfl, rfl⟩
  | cons hxy hrest => exact Or.inr ⟨_, _, _, _, rfl, rfl, hxy, hrest⟩

/-- changes that touch no name and no child -/
theorem Matched.mapSteps (h : Matched P s r) {f g : Step → Step}
    (hfg : ∀ {a b}, StepsMatch P a b → StepsMatch P (f a) (g b)) :
    Matched P { s with openSteps := s.openSteps.map f } { r with openSteps := r.openSteps.map g } := by
  refine ⟨h.roots, ?_⟩
  simp only [List.forall₂_map_left_iff, List.forall₂_map_right_iff]
  exact h.steps.imp fun _ _ hab => hfg hab

theorem Matched.mark (h : Matched P s r) (a b : Bool) :
    Matched P { s with openSteps := s.openSteps.map (marked a) } { r with openSteps := r.openSteps.map (marked b) } :=
  h.mapSteps fun hab => ⟨hab.name, hab.children⟩

theorem Matched.attach (h : Matched P s r) {n m : Node} (hn : n.Matches P m) : Matched P (s.attach n) (r.attach m) := by
  rcases h.stacks with ⟨hs, hr⟩ | ⟨x, outer, y, around, hs, hr, hxy, hrest⟩
  · rw [attach_nil s hs, attach_nil r hr]
    exact ⟨List.rel_append h.roots (.cons hn .nil), h.steps⟩
  · rw [attach_cons s x outer hs, attach_cons r y around hr]
    exact ⟨h.roots, .cons (hxy.adding hn) hrest⟩

/-! ## Operations -/

theorem Matched.openStep (h : Matched P s r) (hname : P (s.masked x.head.name) (r.masked y.head.name))
    (hchildren : List.Forall₂ (Node.Matches P) x.children y.children) : Matched P (s.openStep x) (r.openStep y) := by
  rw [openStep_eq, openStep_eq]
  exact ⟨h.roots, .cons ⟨hname, hchildren⟩ h.steps⟩

theorem Matched.closeStep (h : Matched P s r) (outcome : Option Failure) :
    Matched P (s.closeStep outcome) (r.closeStep outcome) := by
  rcases h.stacks with ⟨hs, hr⟩ | ⟨x, outer, y, around, hs, hr, hxy, hrest⟩
  · rw [closeStep_nil s hs, closeStep_nil r hr]
    exact h
  · have houter : Matched P { s with openSteps := outer } { r with openSteps := around } := ⟨h.roots, hrest⟩
    rw [closeStep_cons s x outer hs, closeStep_cons r y around hr]
    exact (houter.mark _ _).attach ((hxy.closedStep outcome s.now r.now).closedNode hrest)

theorem Matched.closeAll (h : Matched P s r) : Matched P s.closeAll r.closeAll := by
  have htimes : ∀ (n : Nat) {s r : Recorder}, Matched P s r → Matched P (closeTimes n s) (closeTimes n r) := by
    intro n
    induction n with
    | zero => exact fun hsr => hsr
    | succ n ih => exact fun hsr => ih (hsr.closeStep none)
  unfold Recorder.closeAll
  rw [h.steps.length_eq]
  exact htimes _ h

theorem Matched.recordAction (h : Matched P s r) {a b : Action} (hname : P (s.masked a.name) (r.masked b.name)) :
    Matched P (s.recordAction a) (r.recordAction b) := by
  rw [recordAction_eq, recordAction_eq]
  exact (h.mark a.failed b.failed).attach (.action hname)

theorem Matched.recordMessage (h : Matched P s r) {text words : String} (hname : P (s.masked text) (r.masked words))
    (level : Level) : Matched P (s.recordMessage text level) (r.recordMessage words level) :=
  h.attach (.message hname)

/-- a file finds a step on both sides, or on none -/
theorem forall₂_attachToLastStep {ns ms : List Node} (h : List.Forall₂ (Node.Matches P) ns ms) (a : Attachment) :
    (attachToLastStep a ns = none ∧ attachToLastStep a ms = none) ∨
      ∃ ns' ms', attachToLastStep a ns = some ns' ∧ attachToLastStep a ms = some ms' ∧
        List.Forall₂ (Node.Matches P) ns' ms' := by
  induction h with
  | nil => exact Or.inl ⟨rfl, rfl⟩
  | @cons n m ns ms hnm hrest ih =>
    unfold attachToLastStep
    rcases ih with ⟨hn, hm⟩ | ⟨ns', ms', hn, hm, hmatch⟩
    · rw [hn, hm]
      cases hnm with
      | step name below => exact Or.inr ⟨_, _, rfl, rfl, .cons (.step name below) hrest⟩
      | action name => exact Or.inl ⟨rfl, rfl⟩
      | message text => exact Or.inl ⟨rfl, rfl⟩
    · rw [hn, hm]
      exact Or.inr ⟨_, _, rfl, rfl, .cons hnm hmatch⟩

theorem Matched.attachFile (h : Matched P s r) (a : Attachment) : Matched P (s.attachFile a) (r.attachFile a) := by
  unfold Recorder.attachFile attachFile?
  rcases h.stacks with ⟨hs, hr⟩ | ⟨x, outer, y, around, hs, hr, hxy, hrest⟩
  · rw [hs, hr]
    rcases forall₂_attachToLastStep h.roots a with ⟨hn, hm⟩ | ⟨ns, ms, hn, hm, hmatch⟩
    · rw [hn, hm]
      exact h
    · rw [hn, hm]
      exact ⟨hmatch, .nil⟩
  · rw [hs, hr]
    exact ⟨h.roots, .cons ⟨hxy.name, hxy.children⟩ hrest⟩

theorem Matched.failCurrent (h : Matched P s r) (failure : Option Failure) :
    Matched P (s.failCurrent failure) (r.failCurrent failure) := by
  unfold Recorder.failCurrent
  rcases h.stacks with ⟨hs, hr⟩ | ⟨x, outer, y, around, hs, hr, hxy, hrest⟩
  · rw [hs, hr]
    exact h
  · rw [hs, hr]
    have hfail : StepsMatch P (x.fail (failure.map Failure.recorded)) (y.fail (failure.map Failure.recorded)) := by
      rw [fail_eq x, fail_eq y]
      exact ⟨hxy.name, hxy.children⟩
    have hboth : Matched P { s with openSteps := x.fail (failure.map Failure.recorded) :: outer }
        { r with openSteps := y.fail (failure.map Failure.recorded) :: around } := ⟨h.roots, .cons hfail hrest⟩
    unfold failOpenSteps
    rw [← marked_true]
    exact hboth.mark true true

/-! ## Going back -/

/-- the checkpoints note the same numbers of roots and of children -/
structure SameCounts (c d : Checkpoint) : Prop where
  roots : c.rootCount = d.rootCount
  children : List.Forall₂ (fun m n : OpenState => m.childCount = n.childCount) c.openStates d.openStates

theorem Matched.sameCounts (h : Matched P s r) : SameCounts s.checkpoint r.checkpoint := by
  refine ⟨h.roots.length_eq, ?_⟩
  unfold checkpoint
  simp only [List.forall₂_map_left_iff, List.forall₂_map_right_iff, List.forall₂_reverse_iff]
  exact h.steps.imp fun _ _ hab => hab.children.length_eq

theorem forall₂_restoreStep {xs ys : List Step} {ms ns : List OpenState} (h : List.Forall₂ (StepsMatch P) xs ys)
    (hcount : List.Forall₂ (fun m n : OpenState => m.childCount = n.childCount) ms ns) :
    List.Forall₂ (StepsMatch P) (List.zipWith restoreStep xs ms) (List.zipWith restoreStep ys ns) := by
  induction h generalizing ms ns with
  | nil => exact .nil
  | cons hxy _ ih =>
    cases hcount with
    | nil => exact .nil
    | cons hmn hcount =>
      refine .cons ⟨hxy.name, ?_⟩ (ih hcount)
      unfold restoreStep
      rw [hmn]
      exact List.forall₂_take _ hxy.children

theorem Matched.rollback (h : Matched P s r) {c d : Checkpoint} (hcd : SameCounts c d) :
    Matched P (s.rollback c) (r.rollback d) := by
  refine ⟨?_, ?_⟩
  · unfold Recorder.rollback
    rw [hcd.roots]
    exact List.forall₂_take _ h.roots
  · exact List.forall₂_reverse_iff.2 (forall₂_restoreStep (List.forall₂_reverse_iff.2 h.steps) hcd.children)

/-! ## A registered secret -/

/-- names that are recorded from now on hide the value -/
structure Guards (value : String) (r : Recorder) : Prop where
  mask : r.maskEnabled = true
  secret : value ∈ r.secrets
  starless : '*' ∉ value.toList
  nonempty : value ≠ ""

variable {value : String}

theorem Guards.hides (h : Guards value r) (text : String) : Hides value (r.masked text) := by
  unfold masked maskWhen
  rw [if_pos h.mask]
  exact hides_mask h.secret h.starless h.nonempty text

theorem Guards.later (h : Guards value s) (hsecrets : s.secrets <+: r.secrets) (hmask : r.maskEnabled = s.maskEnabled) :
    Guards value r :=
  ⟨hmask.trans h.mask, hsecrets.subset h.secret, h.starless, h.nonempty⟩

theorem Guards.closeAll (h : Guards value r) : Guards value r.closeAll :=
  h.later (shuts_closeAll r).later.secrets (shuts_closeAll r).mask

theorem Guards.labelled (h : Guards value r) (label text : String) : HiddenSince value label (r.masked text) :=
  Or.inr (Or.inr (h.hides text))

/-- no operation forgets a secret or switches masking -/
theorem secrets_apply (r : Recorder) (o : Op) :
    r.secrets <+: (r.apply o).secrets ∧ (r.apply o).maskEnabled = r.maskEnabled := by
  cases o with
  | openStep x => exact ⟨(later_openStep r x).secrets, (later_openStep r x).mask⟩
  | closeStep outcome => exact ⟨(shuts_closeStep r outcome).later.secrets, (shuts_closeStep r outcome).mask⟩
  | recordAction a => exact ⟨(trace_recordAction r a).secrets, (trace_recordAction r a).mask⟩
  | recordMessage text level =>
    exact ⟨(trace_recordMessage r text level).secrets, (trace_recordMessage r text level).mask⟩
  | attachFile a =>
    change r.secrets <+: (r.attachFile a).secrets ∧ (r.attachFile a).maskEnabled = r.maskEnabled
    rcases attachFile_cases r a with ⟨_, _, -, h⟩ | ⟨_, _, _, -, h⟩ | h
    all_goals rw [h]; exact ⟨List.prefix_refl _, rfl⟩
  | failCurrent failure => exact ⟨(trace_failCurrent r failure).secrets, (trace_failCurrent r failure).mask⟩
  | addStep name => exact ⟨(later_addStep r name).secrets, (later_addStep r name).mask⟩
  | addSecret v => exact ⟨(renamed_addSecret r v).secrets, (renamed_addSecret r v).mask⟩
  | finish failure screenshot => exact ⟨(shuts_closeAll r).later.secrets, (shuts_closeAll r).mask⟩
  | takeSteps => exact ⟨(shuts_closeAll r).later.secrets, (shuts_closeAll r).mask⟩

/-- a further secret: labels stay, names of open steps are masked once more -/
theorem Matched.addSecret (h : Matched (HiddenSince value) s r) (hs : s.maskEnabled = false) (hr : Guards value r)
    (v : String) : Matched (HiddenSince value) (s.addSecret v) (r.addSecret v) := by
  rw [addSecret_eq, addSecret_eq, hs, hr.mask]
  split
  · refine ⟨h.roots, List.forall₂_map_right_iff.2 (h.steps.imp fun x y hxy => ⟨?_, hxy.children⟩)⟩
    have hmem : value ∈ withSecret r.secrets v := (prefix_withSecret _ _).subset hr.secret
    exact Or.inr (Or.inr (hides_mask hmem hr.starless hr.nonempty _))
  · exact h

theorem Matched.finish (h : Matched (HiddenSince value) s r) (hr : Guards value r) (failure : Option Failure)
    (screenshot : Option Attachment) :
    Matched (HiddenSince value) (s.finish failure screenshot) (r.finish failure screenshot) := by
  have hclosed := h.closeAll
  have hmessage : Node.Matches (HiddenSince value)
      (.message ⟨s.closeAll.masked (verdict failure), if failure.isSome then .error else .log, s.closeAll.now⟩)
      (.message ⟨r.closeAll.masked (verdict failure), if failure.isSome then .error else .log, r.closeAll.now⟩) :=
    .message (hr.closeAll.labelled _ _)
  exact ⟨List.rel_append hclosed.roots (.cons (.step (Or.inr (Or.inl ⟨rfl, rfl⟩)) (.cons hmessage .nil)) .nil),
    hclosed.steps⟩

theorem Matched.addStep (h : Matched (HiddenSince value) s r) (hr : Guards value r) (name : String) :
    Matched (HiddenSince value) (s.addStep since) (r.addStep name) :=
  h.closeAll.openStep (hr.closeAll.labelled _ _) .nil

theorem Matched.apply (h : Matched (HiddenSince value) s r) (hs : s.maskEnabled = false) (hr : Guards value r)
    (o : Op) : Matched (HiddenSince value) (s.apply o.labelled) (r.apply o) := by
  cases o with
  | openStep x =>
    exact h.openStep (hr.labelled _ _) (Node.matches_labelledAll (fun _ => Or.inl rfl) x.children)
  | closeStep outcome => exact h.closeStep outcome
  | recordAction a => exact h.recordAction (hr.labelled _ _)
  | recordMessage text level => exact h.recordMessage (hr.labelled _ _) level
  | attachFile a => exact h.attachFile a
  | failCurrent failure => exact h.failCurrent failure
  | addStep name => exact h.addStep hr name
  | addSecret v => exact h.addSecret hs hr v
  | finish failure screenshot => exact h.finish hr failure screenshot
  | takeSteps => exact ⟨.nil, h.closeAll.steps⟩

end

/-- the tape with labels goes along with the tape -/
structure Tied (value : String) (a t : Tape) : Prop where
  record : Matched (HiddenSince value) a.recorder t.recorder
  plain : a.recorder.maskEnabled = false
  guards : Guards value t.recorder
  marks : List.Forall₂ SameCounts a.marks t.marks

theorem step_tied {value : String} {a t : Tape} (h : Tied value a t) (act : Act) :
    Tied value (a.step act.labelled) (t.step act) := by
  cases act with
  | op o =>
    have hlabels := secrets_apply a.recorder o.labelled
    have hnames := secrets_apply t.recorder o
    exact ⟨h.record.apply h.plain h.guards o, hlabels.2.trans h.plain, h.guards.later hnames.1 hnames.2, h.marks⟩
  | wait time => exact ⟨⟨h.record.roots, h.record.steps⟩, h.plain, h.guards.later (List.prefix_refl _) rfl, h.marks⟩
  | checkpoint =>
    exact ⟨h.record, h.plain, h.guards, List.rel_append h.marks (.cons h.record.sameCounts .nil)⟩
  | rollback n =>
    change Tied value (a.step (.rollback n)) (t.step (.rollback n))
    -- the number names checkpoints of the same moment on the two tapes
    have hmark := List.forall₂_iff_get.1 h.marks
    simp only [Tape.step]
    cases hc : t.marks[n]? with
    | none =>
      have hnone : a.marks[n]? = none := by
        rw [List.getElem?_eq_none_iff, h.marks.length_eq]
        exact List.getElem?_eq_none_iff.1 hc
      rw [hnone]
      exact h
    | some d =>
      obtain ⟨hn, rfl⟩ := List.getElem?_eq_some_iff.1 hc
      have hn' : n < a.marks.length := by
        rw [h.marks.length_eq]
        exact hn
      rw [List.getElem?_eq_getElem hn']
      exact ⟨h.record.rollback (hmark.2 n hn' hn), h.plain, h.guards.later (List.prefix_refl _) rfl, h.marks⟩

theorem run_tied {value : String} {a t : Tape} (h : Tied value a t) (acts : List Act) :
    Tied value (a.run (acts.map Act.labelled)) (t.run acts) := by
  induction acts generalizing a t with
  | nil => exact h
  | cons act acts ih => exact ih (step_tied h act)

/-- at the registration itself: open steps have just been masked, and closed nodes do not count -/
theorem tied_registered {value : String} {t : Tape} (hmask : t.recorder.maskEnabled = true)
    (haccept : acceptsSecret value = true) (hstar : '*' ∉ value.toList) :
    Tied value (t.step (.op (.addSecret value))).labelled (t.step (.op (.addSecret value))) := by
  have hne : value ≠ "" := by
    rintro rfl
    exact absurd haccept (by decide)
  have hrecorder : (t.step (.op (.addSecret value))).recorder =
      { t.recorder with
        secrets := withSecret t.recorder.secrets value
        openSteps := t.recorder.openSteps.map (remasked (withSecret t.recorder.secrets value)) } := by
    change t.recorder.addSecret value = _
    rw [addSecret_eq, if_pos haccept, if_pos hmask]
  have hmem : value ∈ withSecret t.recorder.secrets value := by
    unfold withSecret
    split
    · rename_i hcontains
      simpa using hcontains
    · simp
  refine ⟨⟨Node.matches_labelledAll (fun _ => Or.inl rfl) _, ?_⟩, rfl, ?_, ?_⟩
  · simp only [Tape.labelled, Recorder.labelled, hrecorder, List.map_map, List.forall₂_map_left_iff,
      List.forall₂_map_right_iff]
    refine List.forall₂_same.2 fun x _ => ⟨?_, Node.matches_labelledAll (fun _ => Or.inl rfl) _⟩
    exact Or.inr (Or.inr (hides_mask hmem hstar hne _))
  · rw [hrecorder]
    exact ⟨hmask, hmem, hstar, hne⟩
  · exact List.forall₂_same.2 fun c _ => ⟨rfl, List.forall₂_same.2 fun _ _ => rfl⟩

/-- **A registered secret stays hidden.** Masking is on, and a value without stars is accepted as a secret. Whatever
operations, checkpoints and rollbacks follow: a node that is there at the end and was open at the registration, or was
opened or recorded since, does not show the value in its name or text, and no open step does. The second run of the same
history says which nodes these are: all but those it labels `before`. -/
theorem secret_stays_hidden (t : Tape) (value : String) (acts : List Act) (hmask : t.recorder.maskEnabled = true)
    (haccept : t.recorder.answer (.addSecret value) = some true) (hstar : '*' ∉ value.toList) :
    let registered := t.step (.op (.addSecret value))
    Matched (HiddenSince value) (registered.labelled.run (acts.map Act.labelled)).recorder
      (registered.run acts).recorder := by
  have htied := tied_registered hmask (Option.some.inj haccept) hstar
  exact (run_tied htied acts).record

/-- the secret is in the name of an open step, in a step that is rolled back, in a message and in the names of later
steps -/
theorem password_of_login_hidden :
    let t : Tape := ⟨(fresh true noon).openStep (.new "log in with hunter22" "login" noon), []⟩
    let acts : List Act :=
      [.checkpoint, .op (.openStep (.new "type hunter22" "type" noon)), .rollback 0,
        .op (.recordMessage "hunter22 typed" .info), .op (.addStep "greet hunter22"), .op (.finish none none)]
    let registered := t.step (.op (.addSecret "hunter22"))
    t.recorder.maskEnabled = true ∧ t.recorder.answer (.addSecret "hunter22") = some true ∧
      '*' ∉ "hunter22".toList ∧
      (registered.run acts).recorder.roots.map Node.name = ["log in with ******", "greet ******", "Test end"] ∧
      Matched (HiddenSince "hunter22") (registered.labelled.run (acts.map Act.labelled)).recorder
        (registered.run acts).recorder :=
  ⟨rfl, by decide, by decide, by decide +kernel, secret_stays_hidden _ _ _ rfl (by decide) (by decide)⟩

end Recorder

end TestTrail
