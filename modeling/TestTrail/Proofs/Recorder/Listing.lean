/-
Recording keeps the order of recording.

Open steps stand beside the tree and join it only when they are closed, some of them as actions. The listing of a recorder
takes the closed roots and then each open step, outermost first, with what is below it: the order in which the finished
tree will show them. `listing_apply` says that an operation adds to the end of the listing what it records
(`entriesOf`), and that closing changes nothing; `listing_of_recording` says it of whole histories.

Beside the order it has the numbers: `Numbered` says that the root steps are numbered from 0 on and no other step is.
-/
import TestTrail.Proofs.Recorder.Numbering

namespace TestTrail

open Recorder

/-- a recorded node, as it can be told whether or not its step became an action -/
inductive Entry where
  | call (actionId : String)
  | message (text : String)
  deriving DecidableEq, Repr

namespace Node

mutual

/-- the node and what is below it, in the order of recording -/
def entries : Node → List Entry
  | step h cs => .call h.actionId :: forestEntries cs
  | action a => [.call a.actionId]
  | message m => [.message m.text]

def forestEntries : List Node → List Entry
  | [] => []
  | n :: ns => n.entries ++ forestEntries ns

end

mutual

/-- no step at the node or below it has a number -/
def Unnumbered : Node → Prop
  | step h cs => h.position = none ∧ AllUnnumbered cs
  | action _ | message _ => True

def AllUnnumbered : List Node → Prop
  | [] => True
  | n :: ns => n.Unnumbered ∧ AllUnnumbered ns

end

theorem forestEntries_append (ns ms : List Node) :
    forestEntries (ns ++ ms) = forestEntries ns ++ forestEntries ms := by
  induction ns with
  | nil => rfl
  | cons n ns ih => rw [List.cons_append, forestEntries, forestEntries, ih, List.append_assoc]

theorem forestEntries_singleton (n : Node) : forestEntries [n] = n.entries := List.append_nil _

theorem allUnnumbered_append {ns ms : List Node} (h : AllUnnumbered ns) (k : AllUnnumbered ms) :
    AllUnnumbered (ns ++ ms) := by
  induction ns with
  | nil => exact k
  | cons n ns ih => exact ⟨h.1, ih h.2⟩

end Node

namespace Recorder

/-- the closed roots, then each open step from the outermost to the innermost, followed by what is below it -/
def listing (r : Recorder) : List Entry :=
  Node.forestEntries r.roots ++ r.openSteps.reverse.flatMap fun s => s.toNode.entries

/-- what an operation records -/
def entriesOf (r : Recorder) : Op → List Entry
  | .openStep s => [.call s.head.actionId]
  | .recordAction a => [.call a.actionId]
  | .recordMessage text _ => [.message (r.masked text)]
  | .addStep name => [.call name]
  | .finish failure _ => [.call endName, .message (r.masked (verdict failure))]
  | _ => []

/-- the root steps, closed or open, are numbered from 0 on, and no other step has a number -/
structure Numbered (r : Recorder) : Prop where
  roots : numbers r = (List.range r.rootPositions).map some
  closed : ∀ n ∈ r.roots, Node.AllUnnumbered n.children
  below : ∀ s ∈ r.openSteps, Node.AllUnnumbered s.children
  /-- the outermost open step comes last -/
  inner : ∀ p ∈ (stackNumbers r).dropLast, p = none

/-! ## Steps -/

/-- a step without what marks, masking, files and closing may change -/
def shape (s : Step) : Step :=
  { s with
    head := { s.head with name := "", failed := false, exception := none, attachments := [], durationMs := 0 } }

theorem shape_marked (b : Bool) (s : Step) : shape (marked b s) = shape s := rfl

theorem shape_fail (s : Step) (e : Option RecordedFailure) : shape (s.fail e) = shape s := by
  rw [fail_eq]
  rfl

theorem shape_closedStep (s : Step) (outcome : Option Failure) (now : Timestamp) :
    shape (closedStep s outcome now) = shape s := by
  cases outcome with
  | none => rfl
  | some f => exact shape_fail _ _

theorem map_shape {f : Step → Step} (hf : ∀ s, shape (f s) = shape s) (steps : List Step) :
    (steps.map f).map shape = steps.map shape := by
  rw [List.map_map]
  exact List.map_congr_left fun s _ => hf s

/-- what can be read off the shapes is the same when the shapes are -/
theorem map_of_shape {β : Type} {f : Step → β} (hf : ∀ s, f (shape s) = f s) {xs ys : List Step}
    (h : ys.map shape = xs.map shape) : ys.map f = xs.map f := by
  have hread : ∀ zs : List Step, zs.map f = (zs.map shape).map f := by
    intro zs
    rw [List.map_map]
    exact List.map_congr_left fun s _ => (hf s).symm
  rw [hread ys, hread xs, h]

theorem children_closedStep (s : Step) (outcome : Option Failure) (now : Timestamp) :
    (closedStep s outcome now).children = s.children :=
  congrArg (fun x => x.children) (shape_closedStep s outcome now)

/-- a failure on the current step, with the marks it puts on the others -/
theorem failCurrent_same (r : Recorder) (failure : Option Failure) :
    (r.failCurrent failure).roots = r.roots ∧ (r.failCurrent failure).rootPositions = r.rootPositions ∧
      (r.failCurrent failure).openSteps.map shape = r.openSteps.map shape := by
  unfold failCurrent
  split
  · exact ⟨rfl, rfl, rfl⟩
  · rename_i x outer ho
    refine ⟨rfl, rfl, ?_⟩
    unfold failOpenSteps
    rw [ho, ← marked_true, map_shape (shape_marked true), List.map_cons, List.map_cons, shape_fail]

/-- a secret masks names only -/
theorem addSecret_same (r : Recorder) (value : String) :
    (r.addSecret value).roots = r.roots ∧ (r.addSecret value).rootPositions = r.rootPositions ∧
      (r.addSecret value).openSteps.map shape = r.openSteps.map shape := by
  have h := renamed_addSecret r value
  refine ⟨h.roots, h.numbers, map_eq_of_forall₂ h.stack fun {a b} hab => ?_⟩
  rw [hab]
  rfl

theorem entries_adding (s : Step) (n : Node) : (adding s [n]).toNode.entries = s.toNode.entries ++ n.entries := by
  change .call s.head.actionId :: Node.forestEntries (s.children ++ [n]) = _
  rw [Node.forestEntries_append, Node.forestEntries_singleton]
  rfl

/-- a step that becomes an action on closing is listed as before -/
theorem entries_closedNode (s : Step) (outer : List Step) : (closedNode s outer).entries = s.toNode.entries := by
  unfold closedNode
  split
  · rename_i hempty
    rw [Bool.and_eq_true] at hempty
    unfold Step.toNode
    rw [List.isEmpty_iff.1 hempty.2]
    rfl
  · rfl

/-! ## The listing -/

theorem listing_attach (r : Recorder) (n : Node) : (r.attach n).listing = r.listing ++ n.entries := by
  unfold listing
  cases ho : r.openSteps with
  | nil =>
    rw [attach_nil r ho, Node.forestEntries_append, Node.forestEntries_singleton, ho]
    simp
  | cons x outer =>
    rw [attach_cons r x outer ho]
    simp [List.flatMap_append, entries_adding]

/-- the listing depends on the closed roots and on the shapes of the open steps -/
theorem listing_congr {r t : Recorder} (hroots : t.roots = r.roots)
    (hs : t.openSteps.map shape = r.openSteps.map shape) : t.listing = r.listing := by
  unfold listing
  rw [hroots, List.flatMap_def, List.flatMap_def, List.map_reverse, List.map_reverse,
    map_of_shape (f := fun s => s.toNode.entries) (fun _ => rfl) hs]

theorem listing_mark (r : Recorder) (b : Bool) :
    listing { r with openSteps := r.openSteps.map (marked b) } = r.listing :=
  listing_congr rfl (map_shape (shape_marked b) _)

theorem listing_openStep (r : Recorder) {x : Step} (hx : x.children = []) :
    (r.openStep x).listing = r.listing ++ [.call x.head.actionId] := by
  have hentries : (opened r x).toNode.entries = [.call x.head.actionId] := by
    change .call x.head.actionId :: Node.forestEntries x.children = _
    rw [hx]
    rfl
  rw [openStep_eq]
  unfold listing
  rw [List.reverse_cons, List.flatMap_append, List.flatMap_singleton, hentries, List.append_assoc]

theorem listing_closeStep (r : Recorder) (outcome : Option Failure) : (r.closeStep outcome).listing = r.listing := by
  cases ho : r.openSteps with
  | nil => rw [closeStep_nil r ho]
  | cons x outer =>
    have hclosed : (closedNode (closedStep x outcome r.now) outer).entries = x.toNode.entries := by
      rw [entries_closedNode]
      exact congrArg (fun s => s.toNode.entries) (shape_closedStep x outcome r.now)
    rw [closeStep_cons r x outer ho, listing_attach, hclosed, listing_mark { r with openSteps := outer }]
    unfold listing
    rw [ho, List.reverse_cons, List.flatMap_append, List.flatMap_singleton, List.append_assoc]

theorem listing_closeAll (r : Recorder) : r.closeAll.listing = r.listing :=
  closeAll_keeps (fun t ht => (listing_closeStep t none).trans ht) rfl

theorem listing_recordAction (r : Recorder) (a : Action) :
    (r.recordAction a).listing = r.listing ++ [.call a.actionId] := by
  rw [recordAction_eq, listing_attach, listing_mark]
  rfl

theorem listing_attachFile (r : Recorder) (a : Attachment) : (r.attachFile a).listing = r.listing := by
  rcases attachFile_cases r a with ⟨x, outer, ho, h⟩ | ⟨before, s, after, hr, h⟩ | h
  · rw [h]
    refine listing_congr rfl ?_
    rw [ho]
    rfl
  · rw [h]
    unfold listing
    rw [hr]
    simp only [Node.forestEntries_append, Node.forestEntries]
    rfl
  · rw [h]

theorem masked_closeAll (r : Recorder) (text : String) : r.closeAll.masked text = r.masked text := by
  unfold masked
  rw [(shuts_closeAll r).secrets, (shuts_closeAll r).mask]

theorem listing_finish (r : Recorder) (failure : Option Failure) (screenshot : Option Attachment) :
    (r.finish failure screenshot).listing =
      r.listing ++ [.call endName, .message (r.masked (verdict failure))] := by
  rw [← listing_closeAll r, ← masked_closeAll r]
  unfold listing finish
  rw [openSteps_closeAll, Node.forestEntries_append]
  simp [Node.forestEntries, Node.entries]

/-- **An operation adds what it records at the end of the listing.** -/
theorem listing_apply (r : Recorder) {o : Op} (ho : o.Recording) :
    (r.apply o).listing = r.listing ++ r.entriesOf o := by
  cases o with
  | openStep s => exact listing_openStep r ho.children
  | closeStep outcome => exact (listing_closeStep r outcome).trans (List.append_nil _).symm
  | recordAction a => exact listing_recordAction r a
  | recordMessage text level => exact listing_attach r _
  | attachFile a => exact (listing_attachFile r a).trans (List.append_nil _).symm
  | failCurrent failure =>
    obtain ⟨hroots, -, hs⟩ := failCurrent_same r failure
    exact (listing_congr hroots hs).trans (List.append_nil _).symm
  | addStep name =>
    rw [entriesOf, ← listing_closeAll r]
    exact listing_openStep r.closeAll rfl
  | addSecret value =>
    obtain ⟨hroots, -, hs⟩ := addSecret_same r value
    exact (listing_congr hroots hs).trans (List.append_nil _).symm
  | finish failure screenshot => exact listing_finish r failure screenshot
  | takeSteps => exact ho.elim

theorem run_listing (t : Tape) {acts : List Act} (h : ∀ a ∈ acts, a.Recording) :
    (t.run acts).recorder.listing = t.recorder.listing ++ t.gather entriesOf acts := by
  refine Tape.recording_induction
    (motive := fun t acts => (t.run acts).recorder.listing = t.recorder.listing ++ t.gather entriesOf acts)
    (fun t => (List.append_nil _).symm) ?_ (fun t time acts hrest => hrest) t h
  intro t o acts ho hrest
  rw [Tape.run_cons, hrest, Tape.gather, ← List.append_assoc, ← listing_apply t.recorder ho]
  rfl

/-! ## The numbers -/

theorem allUnnumbered_children {n : Node} (h : n.Unnumbered) : Node.AllUnnumbered n.children := by
  cases n with
  | step head cs => exact h.2
  | action a => trivial
  | message m => trivial

theorem fresh_numbered (maskEnabled : Bool) (now : Timestamp) : Numbered (fresh maskEnabled now) :=
  ⟨rfl, fun _ hn => absurd hn List.not_mem_nil, fun _ hs => absurd hs List.not_mem_nil,
    fun _ hp => absurd hp List.not_mem_nil⟩

/-- other things than the shapes of the open steps may have changed -/
theorem Numbered.congr {r t : Recorder} (h : Numbered r) (hroots : t.roots = r.roots)
    (hnext : t.rootPositions = r.rootPositions) (hs : t.openSteps.map shape = r.openSteps.map shape) :
    Numbered t := by
  have hnumbers : stackNumbers t = stackNumbers r := map_of_shape (fun _ => rfl) hs
  refine ⟨Unbroken.congr h.roots (by rw [hroots]) hnumbers hnext, ?_, ?_, ?_⟩
  · rw [hroots]
    exact h.closed
  · have hbelow : ∀ p ∈ r.openSteps.map shape, Node.AllUnnumbered p.children := List.forall_mem_map.2 h.below
    rw [← hs] at hbelow
    exact fun s hmem => hbelow (shape s) (List.mem_map_of_mem hmem)
  · rw [hnumbers]
    exact h.inner

theorem Numbered.mark {r : Recorder} (h : Numbered r) (b : Bool) :
    Numbered { r with openSteps := r.openSteps.map (marked b) } := h.congr rfl rfl (map_shape (shape_marked b) _)

theorem Numbered.attach {r : Recorder} (h : Numbered r) {n : Node} (hn : n.Unnumbered)
    (hstep : r.openSteps = [] → n.toStep? = none) : Numbered (r.attach n) := by
  refine ⟨Unbroken.attach h.roots hstep, ?_, ?_, ?_⟩
  · cases ho : r.openSteps with
    | nil =>
      rw [attach_nil r ho]
      intro m hm
      rcases List.mem_append.1 hm with hm | hm
      · exact h.closed m hm
      · rw [List.mem_singleton.1 hm]
        exact allUnnumbered_children hn
    | cons x outer =>
      rw [attach_cons r x outer ho]
      exact h.closed
  · cases ho : r.openSteps with
    | nil =>
      rw [attach_nil r ho]
      exact h.below
    | cons x outer =>
      have hbelow := h.below
      rw [ho] at hbelow
      rw [attach_cons r x outer ho]
      intro s hs
      rcases List.mem_cons.1 hs with rfl | hs
      · exact Node.allUnnumbered_append (hbelow x List.mem_cons_self) ⟨hn, trivial⟩
      · exact hbelow s (List.mem_cons_of_mem x hs)
  · rw [stackNumbers_attach]
    exact h.inner

theorem Numbered.openStep {r : Recorder} (h : Numbered r) {x : Step} (hx : x.Fresh) : Numbered (r.openStep x) := by
  refine ⟨Unbroken.openStep h.roots x, ?_, ?_, ?_⟩
  · rw [roots_openStep]
    exact h.closed
  · rw [openStep_eq]
    intro s hs
    rcases List.mem_cons.1 hs with rfl | hs
    · change Node.AllUnnumbered x.children
      rw [hx.children]
      trivial
    · exact h.below s hs
  · rw [stackNumbers_openStep]
    by_cases ho : r.openSteps = []
    · have hnone : stackNumbers r = [] := by
        rw [stackNumbers, ho]
        rfl
      rw [hnone]
      exact fun p hp => absurd hp List.not_mem_nil
    · have hsome : stackNumbers r ≠ [] := mt List.map_eq_nil_iff.1 ho
      rw [if_neg ho, List.dropLast_cons_of_ne_nil hsome]
      intro p hp
      rcases List.mem_cons.1 hp with rfl | hp
      · exact hx.position
      · exact h.inner p hp

theorem Numbered.closeStep {r : Recorder} (h : Numbered r) (outcome : Option Failure) :
    Numbered (r.closeStep outcome) := by
  cases ho : r.openSteps with
  | nil =>
    rw [closeStep_nil r ho]
    exact h
  | cons x outer =>
    have hunbroken : Unbroken (r.closeStep outcome) := Unbroken.closeStep h.roots outcome
    obtain ⟨hroots, hclosed, hbelow, hinner⟩ := h
    rw [ho] at hbelow
    have hx : Node.AllUnnumbered (closedStep x outcome r.now).children := by
      rw [children_closedStep]
      exact hbelow x List.mem_cons_self
    rw [closeStep_cons r x outer ho] at hunbroken ⊢
    cases outer with
    | nil =>
      rw [List.map_nil, attach_nil _ rfl] at hunbroken ⊢
      refine ⟨hunbroken, fun n hn => ?_, fun s hs => absurd hs List.not_mem_nil,
        fun p hp => absurd hp List.not_mem_nil⟩
      rcases List.mem_append.1 hn with hn | hn
      · exact hclosed n hn
      · rw [List.mem_singleton.1 hn]
        exact hx
    | cons y outer =>
      -- a step inside another one has no number, whether or not it becomes an action
      have hnumbers : stackNumbers r = x.head.position :: y.head.position :: outer.map fun s => s.head.position := by
        rw [stackNumbers, ho]
        rfl
      rw [hnumbers, List.dropLast_cons_of_ne_nil (List.cons_ne_nil _ _)] at hinner
      have hnode : (closedNode (closedStep x outcome r.now) (y :: outer)).Unnumbered := by
        unfold closedNode
        split
        · trivial
        · refine ⟨?_, hx⟩
          rw [position_closedStep]
          exact hinner _ List.mem_cons_self
      have houter : Numbered { r with openSteps := y :: outer } := by
        refine ⟨?_, hclosed, fun s hs => hbelow s (List.mem_cons_of_mem x hs),
          fun p hp => hinner p (List.mem_cons_of_mem _ hp)⟩
        unfold numbers at *
        rw [hnumbers, List.getLast?_cons_of_ne_nil (List.cons_ne_nil _ _)] at hroots
        exact hroots
      exact (houter.mark _).attach hnode fun hnil => by cases hnil

theorem Numbered.closeAll {r : Recorder} (h : Numbered r) : Numbered r.closeAll :=
  closeAll_keeps (fun _ hr => hr.closeStep none) h

theorem Numbered.attachFile {r : Recorder} (h : Numbered r) (a : Attachment) : Numbered (r.attachFile a) := by
  rcases attachFile_cases r a with ⟨x, outer, ho, hfile⟩ | ⟨before, s, after, hr, hfile⟩ | hfile
  · rw [hfile]
    refine h.congr rfl rfl ?_
    rw [ho]
    rfl
  · obtain ⟨hroots, hclosed, hbelow, hinner⟩ := h
    rw [hfile]
    refine ⟨Unbroken.congr hroots ?_ rfl rfl, ?_, hbelow, hinner⟩
    · rw [hr]
      simp [Node.positions, Step.toNode, Node.toStep?, filed]
    · rw [hr] at hclosed
      intro n hn
      simp only [List.mem_append, List.mem_cons] at hn hclosed
      rcases hn with hn | rfl | hn
      · exact hclosed n (Or.inl hn)
      · exact hclosed s.toNode (Or.inr (Or.inl rfl))
      · exact hclosed n (Or.inr (Or.inr hn))
  · rw [hfile]
    exact h

theorem Numbered.finish {r : Recorder} (h : Numbered r) (failure : Option Failure) (screenshot : Option Attachment) :
    Numbered (r.finish failure screenshot) := by
  obtain ⟨-, hclosed, hbelow, hinner⟩ := h.closeAll
  refine ⟨Unbroken.finish h.roots failure screenshot, fun n hn => ?_, hbelow, hinner⟩
  rcases List.mem_append.1 hn with hn | hn
  · exact hclosed n hn
  · rw [List.mem_singleton.1 hn]
    exact ⟨trivial, trivial⟩

theorem Numbered.apply {r : Recorder} (h : Numbered r) {o : Op} (ho : o.Recording) : Numbered (r.apply o) := by
  cases o with
  | openStep s => exact h.openStep ho
  | closeStep outcome => exact h.closeStep outcome
  | recordAction a =>
    rw [Recorder.apply, recordAction_eq]
    exact (h.mark a.failed).attach trivial fun _ => rfl
  | recordMessage text level => exact h.attach trivial fun _ => rfl
  | attachFile a => exact h.attachFile a
  | failCurrent failure =>
    obtain ⟨hroots, hnext, hs⟩ := failCurrent_same r failure
    exact h.congr hroots hnext hs
  | addStep name => exact h.closeAll.openStep (Step.fresh_new name name r.closeAll.now)
  | addSecret value =>
    obtain ⟨hroots, hnext, hs⟩ := addSecret_same r value
    exact h.congr hroots hnext hs
  | finish failure screenshot => exact h.finish failure screenshot
  | takeSteps => exact ho.elim

theorem run_numbered (t : Tape) {acts : List Act} (h : ∀ a ∈ acts, a.Recording) :
    Numbered t.recorder → Numbered (t.run acts).recorder := by
  refine Tape.recording_induction (motive := fun t acts => Numbered t.recorder → Numbered (t.run acts).recorder)
    (fun t ht => ht) ?_ ?_ t h
  · exact fun t o acts ho hrest ht => hrest (ht.apply ho)
  · exact fun t time acts hrest ht => hrest (ht.congr rfl rfl rfl)

/-- **No recorded node is lost, doubled or moved.** After any history of a new test the listing is what was recorded, in
the order of recording; what comes next is added at its end. The root steps are numbered from 0 on, and no step below
them has a number. -/
theorem listing_of_recording (maskEnabled : Bool) (now : Timestamp) (acts : List Act)
    (h : ∀ a ∈ acts, a.Recording) :
    let start : Tape := ⟨fresh maskEnabled now, []⟩
    let r := (start.run acts).recorder
    r.listing = start.gather entriesOf acts ∧
      (∀ o : Op, o.Recording → (r.apply o).listing = r.listing ++ r.entriesOf o) ∧ Numbered r := by
  refine ⟨?_, fun o ho => listing_apply _ ho, run_numbered _ h (fresh_numbered maskEnabled now)⟩
  rw [run_listing _ h]
  rfl

/-- a step that becomes an action, a step that another one closes, and a close too many -/
def checkout : List Act :=
  [.op (.openStep (.new "pay" "pay" noon)), .op (.recordMessage "in cash" .info),
    .op (.openStep (.new "confirm" "confirm" noon)), .op (.closeStep none), .wait noon,
    .op (.recordAction { name := "click on ok", actionId := "click", timestamp := noon }), .op (.addStep "ship"),
    .op (.closeStep none), .op (.closeStep none), .op (.finish none none)]

theorem listing_of_checkout :
    let r := (Tape.run ⟨fresh true noon, []⟩ checkout).recorder
    (∀ a ∈ checkout, a.Recording) ∧
      r.listing =
        [.call "pay", .message "in cash", .call "confirm", .call "click", .call "ship", .call "Test end",
          .message "Test is OK"] ∧
      Numbered r := by
  have hrecording : ∀ a ∈ checkout, a.Recording := by
    simp [checkout, Act.Recording, Op.Recording, Step.fresh_new]
  obtain ⟨hlisting, -, hnumbered⟩ := listing_of_recording true noon checkout hrecording
  exact ⟨hrecording, hlisting.trans (by decide +kernel), hnumbered⟩

end Recorder

end TestTrail
