/-
Rollback is exact.

A checkpoint holds only counts and failure states: the number of roots, the next number of a root, and for every open
step how many children it has, whether it failed, and its exception. `Extends.rollback_eq` says that this is enough:
what is recorded later only comes behind what is there, so a rollback from any extension gives back the recorder
itself.

`rollback_exact` is the law for histories: operations, time that passes, checkpoints and rollbacks to them in any
order, as long as no step is closed that was open at the start (`Within`). Going back leaves the recorder as if of all
that only the registrations of secrets had happened.
-/
import TestTrail.Proofs.Recorder.Extension
import TestTrail.Proofs.Recorder.History

namespace TestTrail.Recorder

/-! ## Back to a checkpoint of the recorder itself -/

theorem restoreStep_of_grown {a b : Step} (h : Grown a b) : restoreStep b (noteStep a) = a := by
  obtain ⟨⟨ns, hns⟩, hh⟩ := h
  have hc : b.children.take a.children.length = a.children := by rw [← hns, List.take_left]
  cases a with
  | mk head children =>
    simp only [restoreStep, noteStep]
    rw [hc, hh]

theorem zipWith_restoreStep {xs ys : List Step} (h : List.Forall₂ Grown xs ys) :
    List.zipWith restoreStep ys (xs.map noteStep) = xs := by
  induction h with
  | nil => rfl
  | cons hab _ ih => rw [List.map_cons, List.zipWith_cons_cons, restoreStep_of_grown hab, ih]

theorem Under.restore {xs ys : List Step} (h : Under xs ys) :
    (List.zipWith restoreStep ys.reverse (xs.reverse.map noteStep)).reverse = xs := by
  obtain ⟨extra, kept, rfl, hk⟩ := h
  have hlen : kept.reverse.length = (xs.reverse.map noteStep).length := by
    rw [List.length_reverse, List.length_map, List.length_reverse, hk.length_eq]
  rw [List.reverse_append, ← List.append_nil (xs.reverse.map noteStep), List.zipWith_append hlen,
    zipWith_restoreStep (List.forall₂_reverse_iff.2 hk), List.zipWith_nil_right, List.append_nil, List.reverse_reverse]

/-- going back from an extension gives back the recorder itself -/
theorem Extends.rollback_eq {s r : Recorder} (h : Extends s r) : r.rollback s.checkpoint = s := by
  have hroots : r.roots.take s.roots.length = s.roots := by
    obtain ⟨ns, hns⟩ := h.roots
    rw [← hns, List.take_left]
  unfold rollback checkpoint
  rw [hroots, h.stack.restore, h.secrets, h.mask, h.now]

/-! ## Back to a later checkpoint -/

/-- the checkpoint was taken of an extension of `s` -/
structure Covers (s : Recorder) (c : Checkpoint) : Prop where
  roots : s.roots.length ≤ c.rootCount
  numbers : s.rootPositions ≤ c.rootPositions
  stack : ∃ notes more, c.openStates = notes ++ more ∧
    List.Forall₂ (fun (x : Step) n => x.children.length ≤ n.childCount) s.openSteps.reverse notes

theorem Extends.covers {s r : Recorder} (h : Extends s r) : Covers s r.checkpoint := by
  obtain ⟨extra, kept, he, hk⟩ := h.stack
  refine ⟨h.roots.length_le, h.numbers, kept.reverse.map noteStep, extra.reverse.map noteStep, ?_, ?_⟩
  · unfold checkpoint
    rw [he, List.reverse_append, List.map_append]
  · refine List.forall₂_map_right_iff.2 ((List.forall₂_reverse_iff.2 hk).imp fun a b hab => ?_)
    exact hab.children.length_le

theorem Grown.restoreStep {a b : Step} (h : Grown a b) {n : OpenState} (hn : a.children.length ≤ n.childCount) :
    Grown a (restoreStep b n) := by
  refine ⟨List.prefix_take_iff.2 ⟨h.children, hn⟩, ?_⟩
  simp only [Recorder.restoreStep]
  rw [h.head]

theorem forall₂_zipWith_restoreStep {xs ys : List Step} {notes : List OpenState} (h : List.Forall₂ Grown xs ys)
    (hn : List.Forall₂ (fun (x : Step) n => x.children.length ≤ n.childCount) xs notes) :
    List.Forall₂ Grown xs (List.zipWith Recorder.restoreStep ys notes) := by
  induction h generalizing notes with
  | nil => exact .nil
  | cons hab _ ih =>
    cases hn with
    | cons hcount hn => exact .cons (hab.restoreStep hcount) (ih hn)

theorem Under.restoreTo {xs ys : List Step} (h : Under xs ys) {notes more : List OpenState}
    (hn : List.Forall₂ (fun (x : Step) n => x.children.length ≤ n.childCount) xs.reverse notes) :
    Under xs (List.zipWith Recorder.restoreStep ys.reverse (notes ++ more)).reverse := by
  obtain ⟨extra, kept, rfl, hk⟩ := h
  have hlen : kept.reverse.length = notes.length := by
    rw [← hn.length_eq, List.length_reverse, List.length_reverse, hk.length_eq]
  refine ⟨(List.zipWith Recorder.restoreStep extra.reverse more).reverse,
    (List.zipWith Recorder.restoreStep kept.reverse notes).reverse, ?_, ?_⟩
  · rw [List.reverse_append, List.zipWith_append hlen, List.reverse_append]
  · have hz := forall₂_zipWith_restoreStep (List.forall₂_reverse_iff.2 hk) hn
    rw [← List.forall₂_reverse_iff, List.reverse_reverse]
    exact hz

theorem Extends.rollback {s r : Recorder} (h : Extends s r) {c : Checkpoint} (hc : Covers s c) :
    Extends s (r.rollback c) := by
  obtain ⟨notes, more, he, hn⟩ := hc.stack
  refine ⟨List.prefix_take_iff.2 ⟨h.roots, hc.roots⟩, hc.numbers, ?_, h.secrets, h.mask, h.now⟩
  unfold Recorder.rollback
  rw [he]
  exact h.stack.restoreTo hn

/-! ## Secrets change names only -/

/-- the same step, but for its name -/
def SameButName (a b : Step) : Prop := b = { a with head := { a.head with name := b.head.name } }

/-- the same recorder, but for further secrets, the names of open steps, and the time -/
structure Renamed (s r : Recorder) : Prop where
  roots : r.roots = s.roots
  numbers : r.rootPositions = s.rootPositions
  stack : List.Forall₂ SameButName s.openSteps r.openSteps
  secrets : s.secrets <+: r.secrets
  mask : r.maskEnabled = s.maskEnabled

theorem SameButName.trans {a b c : Step} (h : SameButName a b) (k : SameButName b c) : SameButName a c := by
  unfold SameButName at *
  rw [k, h]

theorem Renamed.refl (s : Recorder) : Renamed s s :=
  ⟨rfl, rfl, List.forall₂_same.2 fun _ _ => rfl, List.prefix_refl _, rfl⟩

theorem renamed_moveTo (s : Recorder) (time : Timestamp) : Renamed s (s.moveTo time) :=
  { Renamed.refl s with }

theorem renamed_addSecret (s : Recorder) (value : String) : Renamed s (s.addSecret value) := by
  rw [addSecret_eq]
  split
  · refine ⟨rfl, rfl, ?_, prefix_withSecret _ _, rfl⟩
    simp only
    split
    · exact List.forall₂_map_right_iff.2 (List.forall₂_same.2 fun _ _ => rfl)
    · exact List.forall₂_same.2 fun _ _ => rfl
  · exact Renamed.refl s

theorem Renamed.trans {s r t : Recorder} (h : Renamed s r) (k : Renamed r t) : Renamed s t :=
  ⟨k.roots.trans h.roots, k.numbers.trans h.numbers, forall₂_trans h.stack k.stack SameButName.trans,
    h.secrets.trans k.secrets, k.mask.trans h.mask⟩

theorem SameButName.note_eq {a b : Step} (h : SameButName a b) : noteStep b = noteStep a := by
  rw [h]
  rfl

theorem SameButName.count_eq {a b : Step} (h : SameButName a b) : b.children.length = a.children.length := by rw [h]

/-- a checkpoint does not depend on names -/
theorem Renamed.checkpoint_eq {s r : Recorder} (h : Renamed s r) : r.checkpoint = s.checkpoint := by
  unfold checkpoint
  rw [h.roots, h.numbers, List.map_reverse, List.map_reverse,
    map_eq_of_forall₂ h.stack SameButName.note_eq]

theorem Renamed.depth_eq {s r : Recorder} (h : Renamed s r) : r.depth = s.depth := h.stack.length_eq.symm

theorem Renamed.covers {s r : Recorder} (h : Renamed s r) {c : Checkpoint} (hc : Covers s c) : Covers r c := by
  obtain ⟨notes, more, he, hn⟩ := hc.stack
  refine ⟨?_, ?_, notes, more, he, ?_⟩
  · rw [h.roots]; exact hc.roots
  · rw [h.numbers]; exact hc.numbers
  · have hcounts : (r.openSteps.reverse.map fun y => y.children.length) =
        s.openSteps.reverse.map fun x => x.children.length := by
      rw [List.map_reverse, List.map_reverse, map_eq_of_forall₂ h.stack SameButName.count_eq]
    have hnotes : List.Forall₂ (fun k (n : OpenState) => k ≤ n.childCount)
        (s.openSteps.reverse.map fun x => x.children.length) notes := List.forall₂_map_left_iff.2 hn
    rw [← hcounts] at hnotes
    exact List.forall₂_map_left_iff.1 hnotes

/-! ## Histories -/

/-- what an action leaves behind whatever is rolled back -/
def Act.lasts : Act → Bool
  | .op (.addSecret _) => true
  | .wait _ => true
  | _ => false

/-- may happen between a checkpoint of depth `d` and the rollback to it: what records, marks and registers, and closing
steps that were opened since -/
def Allowed (d : Nat) (t : Tape) : Act → Prop
  | .op (.closeStep _) => d < t.recorder.depth
  | .op (.openStep _) | .op (.recordAction _) | .op (.recordMessage ..) | .op (.failCurrent _)
  | .op (.addSecret _) => True
  | .op _ => False
  | .wait _ | .checkpoint | .rollback _ => True

/-- a history that keeps the outermost `d` steps open -/
def Within (d : Nat) (t : Tape) : List Act → Prop
  | [] => True
  | a :: acts => Allowed d t a ∧ Within d (t.step a) acts

instance (d : Nat) (t : Tape) : (a : Act) → Decidable (Allowed d t a)
  | .op (.closeStep _) => inferInstanceAs (Decidable (d < t.recorder.depth))
  | .op (.openStep _) | .op (.recordAction _) | .op (.recordMessage ..) | .op (.failCurrent _)
  | .op (.addSecret _) => inferInstanceAs (Decidable True)
  | .op (.attachFile _) | .op (.addStep _) | .op (.finish ..) | .op .takeSteps => inferInstanceAs (Decidable False)
  | .wait _ | .checkpoint | .rollback _ => inferInstanceAs (Decidable True)

def decideWithin (d : Nat) : (t : Tape) → (acts : List Act) → Decidable (Within d t acts)
  | _, [] => inferInstanceAs (Decidable True)
  | t, a :: acts =>
    have := decideWithin d (t.step a) acts
    inferInstanceAs (Decidable (Allowed d t a ∧ Within d (t.step a) acts))

instance (d : Nat) (t : Tape) (acts : List Act) : Decidable (Within d t acts) := decideWithin d t acts

/-- the tape has gone on from `s` -/
structure Over (s : Recorder) (t : Tape) : Prop where
  recorder : Extends s t.recorder
  marks : ∀ c ∈ t.marks, Covers s c

/-- the recorder when of an action only that has happened what lasts -/
def keep (s : Recorder) (a : Act) : Recorder := if a.lasts then (Tape.step ⟨s, []⟩ a).recorder else s

theorem renamed_keep (s : Recorder) (a : Act) : Renamed s (keep s a) := by
  unfold keep
  split
  · rename_i h
    cases a with
    | wait time => exact renamed_moveTo s time
    | op o =>
      cases o with
      | addSecret value => exact renamed_addSecret s value
      | _ => cases h
    | _ => cases h
  · exact Renamed.refl s

theorem step_over {s : Recorder} {t : Tape} (h : Over s t) (a : Act) (ha : Allowed s.depth t a) :
    Over (keep s a) (t.step a) := by
  cases a with
  | op o =>
    refine ⟨?_, fun c hc => (renamed_keep s _).covers (h.marks c hc)⟩
    cases o with
    | openStep x => exact h.recorder.openStep x
    | closeStep outcome => exact h.recorder.closeStep ha outcome
    | recordAction x => exact h.recorder.recordAction x
    | recordMessage text level => exact h.recorder.recordMessage text level
    | failCurrent failure => exact h.recorder.failCurrent failure
    | addSecret value => exact h.recorder.addSecret value
    | _ => exact ha.elim
  | wait time => exact ⟨h.recorder.moveTo time, fun c hc => (renamed_keep s _).covers (h.marks c hc)⟩
  | checkpoint =>
    refine ⟨h.recorder, fun c hc => ?_⟩
    rcases List.mem_append.1 hc with hc | hc
    · exact h.marks c hc
    · rw [List.mem_singleton.1 hc]
      exact h.recorder.covers
  | rollback n =>
    simp only [Tape.step]
    split
    · rename_i c hc
      exact ⟨h.recorder.rollback (h.marks c (List.mem_of_getElem? hc)), h.marks⟩
    · exact h

theorem run_lasting (s : Recorder) (acts : List Act) :
    Tape.run ⟨s, []⟩ (acts.filter Act.lasts) = ⟨acts.foldl keep s, []⟩ := by
  induction acts generalizing s with
  | nil => rfl
  | cons a acts ih =>
    rw [List.foldl_cons, ← ih]
    cases ha : a.lasts with
    | false =>
      rw [List.filter_cons_of_neg (by rw [ha]; exact Bool.false_ne_true)]
      simp only [keep, ha, Bool.false_eq_true, if_false]
    | true =>
      rw [List.filter_cons_of_pos ha, Tape.run_cons]
      congr 1
      cases a with
      | wait time => rfl
      | op o => simp only [Tape.step, keep, ha, if_true]
      | _ => cases ha

theorem run_over {s : Recorder} {t : Tape} (h : Over s t) (acts : List Act) (hw : Within s.depth t acts) :
    Over (acts.foldl keep s) (t.run acts) ∧ Renamed s (acts.foldl keep s) := by
  induction acts generalizing s t with
  | nil => exact ⟨h, Renamed.refl s⟩
  | cons a acts ih =>
    have hk := renamed_keep s a
    have hw' : Within (keep s a).depth (t.step a) acts := by rw [hk.depth_eq]; exact hw.2
    obtain ⟨ho, hr⟩ := ih (step_over h a hw.1) hw'
    exact ⟨ho, hk.trans hr⟩

/-- **Rollback is exact.** Whatever happens between a checkpoint and the rollback to it, inner checkpoints and rollbacks
included, as long as no step is closed that was open at the checkpoint: the rollback leaves the recorder as if only the
secrets had been registered and time had passed. So the closed roots, the numbering, the open steps with their children,
failure marks and exceptions are those of the checkpoint; names of open steps may have been masked again. -/
theorem rollback_exact (s : Recorder) (acts : List Act) (h : Within s.depth ⟨s, []⟩ acts) :
    let back := (Tape.run ⟨s, []⟩ acts).recorder.rollback s.checkpoint
    back = (Tape.run ⟨s, []⟩ (acts.filter Act.lasts)).recorder ∧
      back.roots = s.roots ∧ back.rootPositions = s.rootPositions ∧ back.depth = s.depth ∧
      List.Forall₂ SameButName s.openSteps back.openSteps ∧ s.secrets <+: back.secrets := by
  obtain ⟨ho, hr⟩ := run_over (s := s) (t := ⟨s, []⟩) ⟨Extends.refl s, fun _ hc => absurd hc (List.not_mem_nil)⟩ acts h
  have hback := ho.recorder.rollback_eq
  rw [hr.checkpoint_eq] at hback
  rw [run_lasting]
  simp only [hback]
  exact ⟨trivial, hr.roots, hr.numbers, hr.depth_eq, hr.stack, hr.secrets⟩

def noon : Timestamp := { year := 2024, month := 5, day := 1, hour := 12 }

/-- a click fails in a step inside an open one, a checkpoint is taken in between and gone back to, and a secret comes
up: the rollback leaves the open step with the secret, and nothing else -/
theorem rollback_from_failed_payment :
    let s := (fresh true noon).openStep (.new "checkout" "checkout" noon)
    let acts : List Act :=
      [.op (.openStep (.new "pay" "pay" noon)),
        .op (.recordAction { name := "click", actionId := "click", failed := true, timestamp := noon }),
        .checkpoint, .op (.addSecret "hunter22"), .op (.closeStep none), .rollback 0, .op (.failCurrent none)]
    Within s.depth ⟨s, []⟩ acts ∧ (Tape.run ⟨s, []⟩ acts).recorder.rollback s.checkpoint = s.addSecret "hunter22" :=
  ⟨by decide, (rollback_exact _ _ (by decide)).1⟩

end TestTrail.Recorder
