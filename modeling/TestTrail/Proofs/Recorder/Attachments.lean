/-
What becomes of the files put on steps.

`held` are the files on the closed roots and on the open steps. A file is accepted when it finds a step, and a screenshot
when the closing step takes it (`accepted`). A step inside another one that closes without children becomes an action,
and an action has no place for files: those of the step are lost (`lost`).

`held_apply` balances the books of one operation, `run_held` those of a history, and `attachments_taken` those of a whole
test: the record that is handed over has the accepted files without the lost ones. So a test keeps every file that it
accepted exactly when none is lost.
-/
import TestTrail.Proofs.Recorder.Listing

namespace TestTrail

open Recorder

theorem Node.forestAttachments_append (ns ms : List Node) :
    forestAttachments (ns ++ ms) = forestAttachments ns ++ forestAttachments ms := by
  induction ns with
  | nil => rfl
  | cons n ns ih => rw [List.cons_append, forestAttachments, forestAttachments, ih, List.append_assoc]

theorem Node.forestAttachments_singleton (n : Node) : forestAttachments [n] = n.attachments := List.append_nil _

/-- the files of a forest, root step by root step -/
def Node.filesOfSteps (forest : List Node) : List Attachment :=
  (forest.filterMap Node.toStep?).flatMap Step.allAttachments

/-- only steps have files -/
theorem Node.filesOfSteps_eq (forest : List Node) : filesOfSteps forest = forestAttachments forest := by
  induction forest with
  | nil => rfl
  | cons n ns ih =>
    rw [forestAttachments, ← ih]
    cases n with
    | step head cs => rfl
    | action a => rfl
    | message m => rfl

namespace Recorder

/-- the files on the closed roots and on the open steps -/
def held (r : Recorder) : List Attachment :=
  Node.forestAttachments r.roots ++ r.openSteps.flatMap Step.allAttachments

/-- the files that an operation takes in -/
def accepted (r : Recorder) : Op → List Attachment
  | .attachFile a => if r.answer (.attachFile a) = some true then [a] else []
  | .finish _ screenshot => screenshot.toList
  | _ => []

/-- the files of the innermost open step, if that step becomes an action when it is closed now -/
def lostOnClose (r : Recorder) : List Attachment :=
  match r.openSteps with
  | s :: _ :: _ => if s.children.isEmpty then s.head.attachments else []
  | _ => []

/-- the files that an operation loses -/
def lost (r : Recorder) : Op → List Attachment
  | .closeStep _ | .addStep _ | .finish _ _ | .takeSteps => r.lostOnClose
  | _ => []

/-! ## Steps and nodes -/

theorem allAttachments_eq (s : Step) :
    s.allAttachments = s.head.attachments ++ Node.forestAttachments s.children := rfl

theorem allAttachments_fail (s : Step) (e : Option RecordedFailure) : (s.fail e).allAttachments = s.allAttachments := by
  rw [fail_eq]
  rfl

theorem allAttachments_closedStep (s : Step) (outcome : Option Failure) (now : Timestamp) :
    (closedStep s outcome now).allAttachments = s.allAttachments := by
  cases outcome with
  | none => rfl
  | some f => exact allAttachments_fail _ _

theorem allAttachments_adding (s : Step) (n : Node) :
    (adding s [n]).allAttachments = s.allAttachments ++ n.attachments := by
  change s.head.attachments ++ Node.forestAttachments (s.children ++ [n]) = _
  rw [Node.forestAttachments_append, Node.forestAttachments_singleton, allAttachments_eq, List.append_assoc]

theorem allAttachments_filed (a : Attachment) (s : Step) :
    (filed a s).allAttachments.Perm (s.allAttachments ++ [a]) := by
  rw [allAttachments_eq, allAttachments_eq, List.append_assoc]
  change (s.head.attachments ++ [a] ++ Node.forestAttachments s.children).Perm _
  rw [List.append_assoc]
  exact List.perm_append_comm.append_left _

/-- a closed step has its files in its node, or it has become an action and lost them -/
theorem attachments_closedNode {r : Recorder} {x : Step} {outer : List Step} (ho : r.openSteps = x :: outer)
    (outcome : Option Failure) :
    (closedNode (closedStep x outcome r.now) outer).attachments ++ r.lostOnClose = x.allAttachments := by
  have hfiles : (closedStep x outcome r.now).toNode.attachments = x.allAttachments :=
    allAttachments_closedStep x outcome r.now
  unfold closedNode lostOnClose
  rw [ho, children_closedStep]
  cases outer with
  | nil => simp [hfiles]
  | cons y outer =>
    cases hx : x.children with
    | nil => simp [allAttachments_eq, hx, Node.attachments, Node.forestAttachments]
    | cons n ns => simp [hfiles, hx]

/-! ## Operations -/

/-- what is held depends on the closed roots and on the files of the open steps -/
theorem held_congr {r t : Recorder} (hroots : t.roots = r.roots)
    (hs : t.openSteps.map Step.allAttachments = r.openSteps.map Step.allAttachments) : t.held = r.held := by
  unfold held
  rw [hroots, List.flatMap_def, List.flatMap_def, hs]

theorem held_mark (r : Recorder) (b : Bool) : held { r with openSteps := r.openSteps.map (marked b) } = r.held := by
  refine held_congr rfl ?_
  rw [List.map_map]
  rfl

theorem held_of_nil {r : Recorder} (ho : r.openSteps = []) : r.held = Node.forestAttachments r.roots := by
  unfold held
  rw [ho, List.flatMap_nil, List.append_nil]

theorem held_attach (r : Recorder) (n : Node) : (r.attach n).held.Perm (r.held ++ n.attachments) := by
  unfold held
  cases ho : r.openSteps with
  | nil =>
    rw [attach_nil r ho, ho, Node.forestAttachments_append]
    simp [Node.forestAttachments]
  | cons x outer =>
    rw [attach_cons r x outer ho, List.flatMap_cons, List.flatMap_cons, allAttachments_adding]
    simp only [List.append_assoc]
    exact (List.perm_append_comm.append_left _).append_left _

theorem held_openStep (r : Recorder) {x : Step} (hx : x.Fresh) : (r.openStep x).held = r.held := by
  have hfiles : (opened r x).allAttachments = [] := by
    change x.head.attachments ++ Node.forestAttachments x.children = []
    rw [hx.attachments, hx.children]
    rfl
  rw [openStep_eq]
  unfold held
  rw [List.flatMap_cons, hfiles, List.nil_append]

theorem held_closeStep (r : Recorder) (outcome : Option Failure) :
    ((r.closeStep outcome).held ++ r.lostOnClose).Perm r.held := by
  cases ho : r.openSteps with
  | nil =>
    have hlost : r.lostOnClose = [] := by
      unfold lostOnClose
      rw [ho]
    rw [closeStep_nil r ho, hlost, List.append_nil]
  | cons x outer =>
    have hheld : r.held.Perm (held { r with openSteps := outer } ++ x.allAttachments) := by
      unfold held
      rw [ho, List.flatMap_cons, List.append_assoc]
      exact List.perm_append_comm.append_left _
    rw [closeStep_cons r x outer ho]
    refine ((held_attach _ _).append_right _).trans ?_
    rw [List.append_assoc, attachments_closedNode ho, held_mark { r with openSteps := outer }]
    exact hheld.symm

/-- whatever is around a step that has been closed has children -/
theorem lostOnClose_closeStep (r : Recorder) (outcome : Option Failure) : (r.closeStep outcome).lostOnClose = [] := by
  unfold lostOnClose
  cases ho : r.openSteps with
  | nil => rw [closeStep_nil r ho, ho]
  | cons x outer =>
    rw [closeStep_cons r x outer ho]
    cases outer with
    | nil =>
      rw [List.map_nil, attach_nil _ rfl]
    | cons y outer =>
      rw [List.map_cons, attach_cons _ _ _ rfl]
      cases outer with
      | nil => rfl
      | cons z outer => simp [adding]

/-- only the first of several steps that are closed at once can lose files -/
theorem held_closeAll (r : Recorder) : (r.closeAll.held ++ r.lostOnClose).Perm r.held := by
  -- `kept` is left after the first close, and the steps that are closed after it lose nothing
  let kept := (r.closeStep none).held
  have hkeeps : ∀ t : Recorder, (kept ++ t.lostOnClose).Perm t.held →
      (kept ++ (t.closeStep none).lostOnClose).Perm (t.closeStep none).held := by
    intro t ht
    rw [lostOnClose_closeStep, List.append_nil]
    exact (List.perm_append_right_iff _).1 (ht.trans (held_closeStep t none).symm)
  have hall : kept.Perm r.closeAll.held := by
    have h := closeAll_keeps hkeeps (held_closeStep r none)
    have hlost : r.closeAll.lostOnClose = [] := by
      unfold lostOnClose
      rw [openSteps_closeAll]
    rw [hlost, List.append_nil] at h
    exact h
  exact (hall.symm.append_right _).trans (held_closeStep r none)

/-- a file that finds a step is held, once -/
theorem held_attachFile {r t : Recorder} {a : Attachment} (h : r.attachFile? a = some t) :
    t.held.Perm (r.held ++ [a]) := by
  -- the file goes into the middle of the list, after the files of its step
  have hmiddle : ∀ (s : Step) (before after : List Attachment),
      (before ++ ((filed a s).allAttachments ++ after)).Perm (before ++ (s.allAttachments ++ after) ++ [a]) := by
    intro s before after
    rw [List.append_assoc, List.append_assoc]
    refine List.Perm.append_left _ (((allAttachments_filed a s).append_right _).trans ?_)
    rw [List.append_assoc]
    exact List.perm_append_comm.append_left _
  cases ho : r.openSteps with
  | nil =>
    obtain ⟨before, s, after, hr, rfl⟩ := attachFile_nil ho h
    unfold held
    rw [ho, hr, List.flatMap_nil, List.append_nil, List.append_nil, Node.forestAttachments_append,
      Node.forestAttachments_append]
    exact hmiddle s _ _
  | cons x outer =>
    rw [attachFile_cons r x outer ho] at h
    obtain rfl := Option.some.inj h
    unfold held
    rw [ho, List.flatMap_cons, List.flatMap_cons]
    exact hmiddle x _ _

theorem held_failCurrent (r : Recorder) (failure : Option Failure) : (r.failCurrent failure).held = r.held := by
  unfold failCurrent
  split
  · rfl
  · rename_i x outer ho
    unfold failOpenSteps
    rw [← marked_true, held_mark]
    refine held_congr rfl ?_
    rw [ho, List.map_cons, List.map_cons, allAttachments_fail]

theorem held_addSecret (r : Recorder) (value : String) : (r.addSecret value).held = r.held := by
  have h := renamed_addSecret r value
  refine held_congr h.roots (map_eq_of_forall₂ h.stack fun {a b} hab => ?_)
  rw [hab]
  rfl

theorem held_finish (r : Recorder) (failure : Option Failure) (screenshot : Option Attachment) :
    (r.finish failure screenshot).held = r.closeAll.held ++ screenshot.toList := by
  have ho : (r.finish failure screenshot).openSteps = [] := openSteps_closeAll r
  rw [held_of_nil ho, held_of_nil (openSteps_closeAll r)]
  unfold finish
  rw [Node.forestAttachments_append, Node.forestAttachments_singleton]
  simp [Node.forestAttachments, Node.attachments]

/-- **The books balance**: what is held after an operation and what it loses were held before or are taken in. -/
theorem held_apply (r : Recorder) {o : Op} (ho : o.Recording) :
    ((r.apply o).held ++ r.lost o).Perm (r.held ++ r.accepted o) := by
  cases o with
  | openStep s =>
    rw [apply, held_openStep r ho]
    exact List.Perm.refl _
  | closeStep outcome =>
    simp only [apply, lost, accepted, List.append_nil]
    exact held_closeStep r outcome
  | recordAction a =>
    have h := held_attach { r with openSteps := r.openSteps.map (marked a.failed) }
      (.action { a with name := r.masked a.name })
    simp only [apply, lost, accepted, List.append_nil]
    rwa [held_mark, ← recordAction_eq, Node.attachments, List.append_nil] at h
  | recordMessage text level =>
    have h := held_attach r (.message ⟨r.masked text, level, r.now⟩)
    simp only [apply, lost, accepted, List.append_nil]
    rwa [Node.attachments, List.append_nil] at h
  | attachFile a =>
    cases hfile : r.attachFile? a with
    | none => simp [apply, lost, accepted, answer, attachFile, hfile]
    | some t => simpa [apply, lost, accepted, answer, attachFile, hfile] using held_attachFile hfile
  | failCurrent failure =>
    rw [apply, held_failCurrent]
    exact List.Perm.refl _
  | addStep name =>
    simp only [apply, addStep, lost, accepted, List.append_nil]
    rw [held_openStep r.closeAll (Step.fresh_new name name r.closeAll.now)]
    exact held_closeAll r
  | addSecret value =>
    rw [apply, held_addSecret]
    exact List.Perm.refl _
  | finish failure screenshot =>
    simp only [apply, lost, accepted]
    rw [held_finish, List.append_assoc]
    refine (List.perm_append_comm.append_left _).trans ?_
    rw [← List.append_assoc]
    exact (held_closeAll r).append_right _
  | takeSteps => exact ho.elim

theorem run_held (t : Tape) {acts : List Act} (h : ∀ a ∈ acts, a.Recording) :
    ((t.run acts).recorder.held ++ t.gather lost acts).Perm (t.recorder.held ++ t.gather accepted acts) := by
  refine Tape.recording_induction
    (motive := fun t acts => ((t.run acts).recorder.held ++ t.gather lost acts).Perm
      (t.recorder.held ++ t.gather accepted acts))
    (fun t => List.Perm.refl _) ?_ (fun t time acts hrest => hrest) t h
  intro t o acts ho hrest
  have hfirst := held_apply t.recorder ho
  rw [Tape.run_cons, Tape.gather, Tape.gather, List.perm_iff_count]
  rw [List.perm_iff_count] at hrest hfirst
  -- both books are added up, for one file at a time
  intro a
  have hrest := hrest a
  have hfirst := hfirst a
  simp only [Tape.step, List.count_append] at hrest hfirst ⊢
  omega

/-- the roots that are handed over hold what was held, but for what the last close loses -/
theorem filesOfSteps_takeSteps (r : Recorder) :
    (Node.filesOfSteps r.takeSteps.1 ++ r.lostOnClose).Perm r.held := by
  have h := held_closeAll r
  rw [held_of_nil (openSteps_closeAll r), ← Node.filesOfSteps_eq] at h
  exact h

/-- **The record that is handed over has the accepted files without the lost ones**; so it has all of them, each once,
exactly when no step with files became an action. -/
theorem attachments_taken (maskEnabled : Bool) (now : Timestamp) (acts : List Act) (h : ∀ a ∈ acts, a.Recording) :
    let start : Tape := ⟨fresh maskEnabled now, []⟩
    let history := acts ++ [.op .takeSteps]
    let files := Node.filesOfSteps (start.run acts).recorder.takeSteps.1
    (files ++ start.gather lost history).Perm (start.gather accepted history) ∧
      (files.Perm (start.gather accepted history) ↔ start.gather lost history = []) := by
  intro start history files
  have hbooks : (files ++ start.gather lost history).Perm (start.gather accepted history) := by
    have hrun := run_held start h
    have htaken := filesOfSteps_takeSteps (start.run acts).recorder
    unfold history
    rw [Tape.gather_append, Tape.gather_append]
    simp only [Tape.gather, lost, accepted, List.append_nil]
    -- the closes lose some of the files that are held, and the last one loses some more
    refine (List.perm_append_comm.append_left _).trans ?_
    rw [← List.append_assoc]
    exact (htaken.append_right _).trans hrun
  refine ⟨hbooks, fun hall => ?_, fun hlost => ?_⟩
  · have hlength := hbooks.length_eq
    rw [List.length_append, hall.length_eq] at hlength
    exact List.eq_nil_of_length_eq_zero (by omega)
  · rw [hlost, List.append_nil] at hbooks
    exact hbooks

/-- a receipt on a step that closes without children inside another one -/
def receipt : List Act :=
  [.op (.openStep (.new "pay" "pay" noon)), .op (.openStep (.new "confirm" "confirm" noon)),
    .op (.attachFile ⟨"receipt", "receipt.txt"⟩), .op (.closeStep none), .op (.closeStep none)]

/-- the receipt was accepted, and the record that is handed over does not have it -/
theorem receipt_lost :
    let start : Tape := ⟨fresh true noon, []⟩
    (∀ a ∈ receipt, a.Recording) ∧
      start.gather accepted (receipt ++ [.op .takeSteps]) = [⟨"receipt", "receipt.txt"⟩] ∧
      Node.filesOfSteps (start.run receipt).recorder.takeSteps.1 = [] := by
  refine ⟨?_, by decide +kernel, by decide +kernel⟩
  simp [receipt, Act.Recording, Op.Recording, Step.fresh_new]

/-- with something recorded below the step the receipt stays, next to the picture of the end -/
def receiptKept : List Act :=
  [.op (.openStep (.new "pay" "pay" noon)), .op (.openStep (.new "confirm" "confirm" noon)),
    .op (.attachFile ⟨"receipt", "receipt.txt"⟩), .op (.recordMessage "in cash" .info), .op (.closeStep none),
    .op (.finish none (some ⟨"end", "end.png"⟩))]

theorem receipt_kept :
    let start : Tape := ⟨fresh true noon, []⟩
    (∀ a ∈ receiptKept, a.Recording) ∧
      (Node.filesOfSteps (start.run receiptKept).recorder.takeSteps.1).Perm
        [⟨"receipt", "receipt.txt"⟩, ⟨"end", "end.png"⟩] := by
  have hrecording : ∀ a ∈ receiptKept, a.Recording := by
    simp [receiptKept, Act.Recording, Op.Recording, Step.fresh_new]
  exact ⟨hrecording, (attachments_taken true noon receiptKept hrecording).2.2 (by decide +kernel)⟩

end Recorder

end TestTrail
