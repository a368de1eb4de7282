/-
What a recorder has gained since an earlier moment.

`Extends s r` says that `r` is `s` with more recorded on it: the closed roots of `s` still come first, every step that
was open in `s` is still open with its old children first, and whatever was opened since lies inside these steps.
Failure marks and exceptions of the steps of `s` may differ. Every operation extends, except those that close a step of
`s`, name files, or empty the recorder; a secret has to be registered on both sides, since it changes the names of open
steps.
-/
import Mathlib.Tactic
import TestTrail.Proofs.Recorder.Operations

namespace TestTrail.Recorder

/-! ## Steps and stacks -/

/-- stacks that are related step by step agree in what the relation keeps -/
theorem map_eq_of_forall₂ {β : Type} {R : Step → Step → Prop} {f : Step → β} {xs ys : List Step}
    (h : List.Forall₂ R xs ys) (hf : ∀ {a b}, R a b → f b = f a) : ys.map f = xs.map f := by
  induction h with
  | nil => rfl
  | cons hab _ ih => rw [List.map_cons, List.map_cons, hf hab, ih]

theorem forall₂_trans {R : Step → Step → Prop} {xs ys zs : List Step} (h : List.Forall₂ R xs ys)
    (k : List.Forall₂ R ys zs) (hR : ∀ {a b c}, R a b → R b c → R a c) : List.Forall₂ R xs zs := by
  induction h generalizing zs with
  | nil => exact k
  | cons hab _ ih =>
    cases k with
    | cons hbc k => exact .cons (hR hab hbc) (ih k)

/-- `b` is `a` with more children, and with failure marks of its own -/
structure Grown (a b : Step) : Prop where
  children : a.children <+: b.children
  head : b.head = { a.head with failed := b.head.failed, exception := b.head.exception }

theorem Grown.refl (a : Step) : Grown a a := ⟨List.prefix_refl _, rfl⟩

theorem Grown.trans {a b c : Step} (h : Grown a b) (k : Grown b c) : Grown a c := by
  refine ⟨h.children.trans k.children, ?_⟩
  rw [k.head, h.head]

theorem grown_marked (b : Bool) (s : Step) : Grown s (marked b s) := ⟨List.prefix_refl _, rfl⟩

theorem grown_adding (s : Step) (ns : List Node) : Grown s (adding s ns) := ⟨List.prefix_append _ _, rfl⟩

theorem grown_fail (s : Step) (e : Option RecordedFailure) : Grown s (s.fail e) := by
  rw [fail_eq]
  exact ⟨List.prefix_refl _, rfl⟩

theorem Grown.remasked {a b : Step} (h : Grown a b) (secrets : List String) :
    Grown (remasked secrets a) (remasked secrets b) := by
  have hn : b.head.name = a.head.name := by rw [h.head]
  refine ⟨h.children, ?_⟩
  simp only [Recorder.remasked, hn]
  rw [h.head]

/-- the stack `ys` holds the grown steps of `xs`, with further steps inside them; both are innermost first -/
def Under (xs ys : List Step) : Prop := ∃ extra kept, ys = extra ++ kept ∧ List.Forall₂ Grown xs kept

theorem Under.refl (xs : List Step) : Under xs xs :=
  ⟨[], xs, rfl, List.forall₂_same.2 fun x _ => Grown.refl x⟩

theorem Under.nil (ys : List Step) : Under [] ys := ⟨ys, [], (List.append_nil _).symm, .nil⟩

theorem Under.length_le {xs ys : List Step} (h : Under xs ys) : xs.length ≤ ys.length := by
  obtain ⟨extra, kept, rfl, hk⟩ := h
  rw [List.length_append, hk.length_eq]
  exact Nat.le_add_left _ _

theorem Under.push {xs ys : List Step} (h : Under xs ys) (y : Step) : Under xs (y :: ys) := by
  obtain ⟨extra, kept, rfl, hk⟩ := h
  exact ⟨y :: extra, kept, rfl, hk⟩

theorem Under.pop {xs ys : List Step} {y : Step} (h : Under xs (y :: ys)) (hlt : xs.length < (y :: ys).length) :
    Under xs ys := by
  obtain ⟨extra, kept, he, hk⟩ := h
  cases extra with
  | nil =>
    rw [List.nil_append] at he
    rw [he, hk.length_eq] at hlt
    exact absurd hlt (lt_irrefl _)
  | cons e extra =>
    rw [List.cons_append, List.cons.injEq] at he
    exact ⟨extra, kept, he.2, hk⟩

theorem Under.map {xs ys : List Step} (h : Under xs ys) {f : Step → Step} (hf : ∀ y, Grown y (f y)) :
    Under xs (ys.map f) := by
  obtain ⟨extra, kept, rfl, hk⟩ := h
  refine ⟨extra.map f, kept.map f, List.map_append, ?_⟩
  exact List.forall₂_map_right_iff.2 (hk.imp fun _ b hab => hab.trans (hf b))

theorem Under.mapBoth {xs ys : List Step} (h : Under xs ys) {f : Step → Step}
    (hf : ∀ a b, Grown a b → Grown (f a) (f b)) : Under (xs.map f) (ys.map f) := by
  obtain ⟨extra, kept, rfl, hk⟩ := h
  refine ⟨extra.map f, kept.map f, List.map_append, ?_⟩
  exact List.forall₂_map_left_iff.2 (List.forall₂_map_right_iff.2 (hk.imp hf))

theorem Under.replace {xs ys : List Step} {y z : Step} (h : Under xs (y :: ys)) (hyz : Grown y z) :
    Under xs (z :: ys) := by
  obtain ⟨extra, kept, he, hk⟩ := h
  cases extra with
  | nil =>
    rw [List.nil_append] at he
    subst he
    cases hk with
    | cons hab hrest => exact ⟨[], z :: ys, rfl, .cons (hab.trans hyz) hrest⟩
  | cons e extra =>
    rw [List.cons_append, List.cons.injEq] at he
    exact ⟨z :: extra, kept, by rw [he.2]; rfl, hk⟩

theorem Under.trans {xs ys zs : List Step} (h : Under xs ys) (k : Under ys zs) : Under xs zs := by
  obtain ⟨extra, kept, rfl, hk⟩ := h
  obtain ⟨more, grown, rfl, hg⟩ := k
  refine ⟨more ++ grown.take extra.length, grown.drop extra.length, ?_, ?_⟩
  · rw [List.append_assoc, List.take_append_drop]
  · have hd := List.forall₂_drop extra.length hg
    rw [List.drop_left] at hd
    exact forall₂_trans hk hd Grown.trans

/-! ## Recorders -/

/-- `r` is `s` with more recorded on it; secrets and time are the same -/
structure Extends (s r : Recorder) : Prop where
  roots : s.roots <+: r.roots
  numbers : s.rootPositions ≤ r.rootPositions
  stack : Under s.openSteps r.openSteps
  secrets : r.secrets = s.secrets
  mask : r.maskEnabled = s.maskEnabled
  now : r.now = s.now

theorem Extends.refl (s : Recorder) : Extends s s :=
  ⟨List.prefix_refl _, le_rfl, Under.refl _, rfl, rfl, rfl⟩

theorem Extends.trans {s r t : Recorder} (h : Extends s r) (k : Extends r t) : Extends s t :=
  ⟨h.roots.trans k.roots, h.numbers.trans k.numbers, h.stack.trans k.stack, k.secrets.trans h.secrets,
    k.mask.trans h.mask, k.now.trans h.now⟩

variable {s r : Recorder}

/-- a change of the stack alone -/
theorem Extends.withStack (h : Extends s r) {steps : List Step} (hs : Under s.openSteps steps) :
    Extends s { r with openSteps := steps } :=
  ⟨h.roots, h.numbers, hs, h.secrets, h.mask, h.now⟩

theorem Extends.mapMarked (h : Extends s r) (b : Bool) : Extends s { r with openSteps := r.openSteps.map (marked b) } :=
  h.withStack (h.stack.map (grown_marked b))

theorem Extends.attach (h : Extends s r) (n : Node) : Extends s (r.attach n) := by
  cases ho : r.openSteps with
  | nil =>
    rw [attach_nil r ho]
    exact { h with roots := h.roots.trans (List.prefix_append _ _) }
  | cons x outer =>
    rw [attach_cons r x outer ho]
    have hu := h.stack
    rw [ho] at hu
    exact h.withStack (hu.replace (grown_adding x [n]))

theorem Extends.openStep (h : Extends s r) (x : Step) : Extends s (r.openStep x) := by
  unfold Recorder.openStep
  split
  · rename_i ho
    have hu := h.stack
    rw [ho] at hu
    exact { h with stack := hu.push _, numbers := Nat.le_succ_of_le h.numbers }
  · exact h.withStack (h.stack.push _)

/-- closing a step that was opened since -/
theorem Extends.closeStep (h : Extends s r) (hd : s.depth < r.depth) (outcome : Option Failure) :
    Extends s (r.closeStep outcome) := by
  unfold depth at hd
  cases ho : r.openSteps with
  | nil => rw [ho] at hd; exact absurd hd (Nat.not_lt_zero _)
  | cons x outer =>
    rw [closeStep_cons r x outer ho]
    have hu := h.stack
    rw [ho] at hu hd
    have hpop : Extends s { r with openSteps := outer.map (marked (closedStep x outcome r.now).head.failed) } :=
      h.withStack ((hu.pop hd).map (grown_marked _))
    exact hpop.attach _

theorem Extends.recordAction (h : Extends s r) (a : Action) : Extends s (r.recordAction a) := by
  rw [recordAction_eq]
  exact (h.mapMarked a.failed).attach _

theorem Extends.recordMessage (h : Extends s r) (text : String) (level : Level) :
    Extends s (r.recordMessage text level) := h.attach _

theorem Extends.failCurrent (h : Extends s r) (failure : Option Failure) : Extends s (r.failCurrent failure) := by
  unfold Recorder.failCurrent
  split
  · exact h
  · rename_i x outer ho
    have hu := h.stack
    rw [ho] at hu
    have hr := h.withStack (hu.replace (grown_fail x (failure.map Failure.recorded)))
    unfold failOpenSteps
    rw [← marked_true]
    exact hr.mapMarked true

theorem Extends.addSecret (h : Extends s r) (value : String) : Extends (s.addSecret value) (r.addSecret value) := by
  rw [addSecret_eq, addSecret_eq, h.secrets, h.mask]
  split
  · refine ⟨h.roots, h.numbers, ?_, rfl, rfl, h.now⟩
    simp only
    split
    · exact h.stack.mapBoth fun a b hab => hab.remasked _
    · exact h.stack
  · exact h

theorem Grown.filed {x y : Step} (h : Grown x y) (a : Attachment) : Grown (filed a x) (filed a y) := by
  have hfiles : y.head.attachments = x.head.attachments := by rw [h.head]
  refine ⟨h.children, ?_⟩
  simp only [Recorder.filed, hfiles]
  rw [h.head]

/-- a file goes to a step that was opened since, or to the innermost step of both -/
theorem Extends.attachFile (h : Extends s r) (ho : r.openSteps ≠ []) (a : Attachment) :
    Extends s (r.attachFile a) ∨ Extends (s.attachFile a) (r.attachFile a) := by
  obtain ⟨y, outer, ho⟩ := List.exists_cons_of_ne_nil ho
  have hu := h.stack
  rw [ho] at hu
  unfold Recorder.attachFile
  rw [attachFile_cons r y outer ho]
  rcases Nat.lt_or_ge s.openSteps.length (y :: outer).length with hlt | hge
  · exact Or.inl (h.withStack ((hu.pop hlt).push _))
  · refine Or.inr ?_
    obtain ⟨extra, kept, he, hk⟩ := hu
    have hextra : extra = [] := by
      rw [he, List.length_append, hk.length_eq] at hge
      exact List.eq_nil_of_length_eq_zero (by omega)
    subst hextra
    cases hs : s.openSteps with
    | nil =>
      rw [hs] at hge
      exact absurd hge (Nat.not_succ_le_zero _)
    | cons x below =>
      rw [hs, ← show y :: outer = kept from he] at hk
      cases hk with
      | cons hxy hrest =>
        rw [attachFile_cons s x below hs]
        exact ⟨h.roots, h.numbers, ⟨[], _, rfl, .cons (hxy.filed a) hrest⟩, h.secrets, h.mask, h.now⟩

theorem Extends.moveTo (h : Extends s r) (time : Timestamp) : Extends (s.moveTo time) (r.moveTo time) :=
  ⟨h.roots, h.numbers, h.stack, h.secrets, h.mask, rfl⟩

end TestTrail.Recorder
