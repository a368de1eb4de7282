/-
The numbers of root steps, and what can happen to them.

A root step gets its number when it is opened and keeps it when it is closed. `Later s r` says of two moments of a test
that numbers are never given twice: whatever is numbered in `r` was numbered in `s` or got a number that was free then.
`Trace` adds what a rollback from `r` to `s` needs. As long as the outermost step that was open in `s` is still open,
nothing that was recorded in `s` has been touched, and the rollback is exact up to names; once that step has been
closed, the rollback takes its node from the roots and cannot open it again.
-/
import TestTrail.Proofs.Recorder.Rollback

namespace TestTrail

/-- the numbers of the steps among the nodes, in order -/
def Node.positions (ns : List Node) : List (Option Nat) := (ns.filterMap Node.toStep?).map fun s => s.head.position

namespace Recorder

/-- the number of the outermost open step -/
def rootNumber (r : Recorder) : Option Nat := r.currentRoot?.bind fun s => s.head.position

theorem positions_append (ns ms : List Node) : Node.positions (ns ++ ms) = Node.positions ns ++ Node.positions ms := by
  simp [Node.positions]

/-- the numbers of the open steps; only the outermost one has one -/
def stackNumbers (r : Recorder) : List (Option Nat) := r.openSteps.map fun s => s.head.position

theorem rootNumber_eq (r : Recorder) : rootNumber r = (stackNumbers r).getLast?.join := by
  unfold rootNumber currentRoot? stackNumbers
  rw [List.getLast?_map]
  cases r.openSteps.getLast? with
  | none => rfl
  | some s => rfl

theorem rootNumber_congr {r t : Recorder} (h : stackNumbers r = stackNumbers t) : rootNumber r = rootNumber t := by
  rw [rootNumber_eq, rootNumber_eq, h]

theorem rootNumber_of_nil {r : Recorder} (h : r.openSteps = []) : rootNumber r = none := by
  rw [rootNumber_eq, stackNumbers, h]
  rfl

theorem position_of_grown {a b : Step} (h : Grown a b) : b.head.position = a.head.position := by rw [h.head]

theorem position_of_sameButName {a b : Step} (h : SameButName a b) : b.head.position = a.head.position := by rw [h]

theorem Renamed.rootNumber_eq {s r : Recorder} (h : Renamed s r) : rootNumber r = rootNumber s :=
  rootNumber_congr (map_eq_of_forall₂ h.stack position_of_sameButName)

/-- as long as more is recorded, the outermost open step stays -/
theorem Extends.rootNumber_eq {s r : Recorder} (h : Extends s r) (hs : s.openSteps ≠ []) :
    rootNumber r = rootNumber s := by
  obtain ⟨extra, kept, he, hk⟩ := h.stack
  have hnumbers : (kept.map fun s => s.head.position) = stackNumbers s :=
    map_eq_of_forall₂ hk position_of_grown
  have hne : stackNumbers s ≠ [] := mt List.map_eq_nil_iff.1 hs
  rw [Recorder.rootNumber_eq, Recorder.rootNumber_eq, ← hnumbers]
  unfold stackNumbers
  rw [he, List.map_append, List.getLast?_append_of_ne_nil _ (hnumbers ▸ hne)]

/-! ## Renaming and recording in either order -/

theorem Grown.rename {a b c : Step} (h : Grown a b) (k : SameButName b c) :
    ∃ d, SameButName a d ∧ Grown d c := by
  refine ⟨{ a with head := { a.head with name := c.head.name } }, rfl, ?_, ?_⟩
  · rw [k]
    exact h.children
  · have hhead := h.head
    rw [k, hhead]

theorem forall₂_rename {xs ys zs : List Step} (h : List.Forall₂ Grown xs ys) (k : List.Forall₂ SameButName ys zs) :
    ∃ ws, List.Forall₂ SameButName xs ws ∧ List.Forall₂ Grown ws zs := by
  induction h generalizing zs with
  | nil =>
    cases k
    exact ⟨[], .nil, .nil⟩
  | cons hab _ ih =>
    cases k with
    | cons hbc k =>
      obtain ⟨d, had, hdc⟩ := hab.rename hbc
      obtain ⟨ws, hws, hzs⟩ := ih k
      exact ⟨d :: ws, .cons had hws, .cons hdc hzs⟩

theorem Under.rename {xs ys zs : List Step} (h : Under xs ys) (k : List.Forall₂ SameButName ys zs) :
    ∃ ws, List.Forall₂ SameButName xs ws ∧ Under ws zs := by
  obtain ⟨extra, kept, rfl, hk⟩ := h
  have hd := List.forall₂_drop extra.length k
  rw [List.drop_left] at hd
  obtain ⟨ws, hws, hzs⟩ := forall₂_rename hk hd
  exact ⟨ws, hws, zs.take extra.length, zs.drop extra.length, (List.take_append_drop _ _).symm, hzs⟩

/-- names that change late might have changed before the recording -/
theorem Extends.rename {s r t : Recorder} (h : Extends s r) (k : Renamed r t) : ∃ b, Renamed s b ∧ Extends b t := by
  obtain ⟨ws, hws, hunder⟩ := h.stack.rename k.stack
  refine ⟨{ s with openSteps := ws, secrets := t.secrets, now := t.now }, ⟨rfl, rfl, hws, ?_, rfl⟩, ?_⟩
  · rw [← h.secrets]
    exact k.secrets
  · refine ⟨?_, ?_, hunder, rfl, ?_, rfl⟩
    · rw [k.roots]; exact h.roots
    · rw [k.numbers]; exact h.numbers
    · rw [k.mask, h.mask]

/-- `r` is `s` with more recorded on it, and with names, secrets and time that may differ -/
def Continues (s r : Recorder) : Prop := ∃ b, Renamed s b ∧ Extends b r

theorem Extends.continues {s r : Recorder} (h : Extends s r) : Continues s r := ⟨s, Renamed.refl s, h⟩

theorem Renamed.continues {s r : Recorder} (h : Renamed s r) : Continues s r := ⟨r, h, Extends.refl r⟩

theorem Continues.trans {s r t : Recorder} (h : Continues s r) (k : Continues r t) : Continues s t := by
  obtain ⟨b, hb, hr⟩ := h
  obtain ⟨c, hc, ht⟩ := k
  obtain ⟨d, hd, hdc⟩ := hr.rename hc
  exact ⟨d, hb.trans hd, hdc.trans ht⟩

theorem Continues.rootNumber_eq {s r : Recorder} (h : Continues s r) (hs : s.openSteps ≠ []) :
    rootNumber r = rootNumber s := by
  obtain ⟨b, hb, hr⟩ := h
  have hne : b.openSteps ≠ [] := by
    intro hnil
    have hlength := hb.stack.length_eq
    rw [hnil] at hlength
    exact hs (List.eq_nil_of_length_eq_zero hlength)
  rw [hr.rootNumber_eq hne, hb.rootNumber_eq]

/-- going back from a continuation gives back the recorder but for names, secrets and time -/
theorem Continues.rollback {s r : Recorder} (h : Continues s r) : Renamed s (r.rollback s.checkpoint) := by
  obtain ⟨b, hb, hr⟩ := h
  rw [← hb.checkpoint_eq, hr.rollback_eq]
  exact hb

/-! ## Closing -/

/-- `r` is `t` after steps have been closed -/
structure Shuts (t r : Recorder) : Prop where
  roots : t.roots <+: r.roots
  numbers : r.rootPositions = t.rootPositions
  secrets : r.secrets = t.secrets
  mask : r.maskEnabled = t.maskEnabled
  root : ∀ n, rootNumber r = some n → rootNumber t = some n
  closed : ∀ n, some n ∈ Node.positions r.roots → some n ∈ Node.positions t.roots ∨ rootNumber t = some n

theorem Shuts.refl (t : Recorder) : Shuts t t :=
  ⟨List.prefix_refl _, rfl, rfl, rfl, fun _ => id, fun _ => Or.inl⟩

theorem Shuts.trans {t r q : Recorder} (h : Shuts t r) (k : Shuts r q) : Shuts t q := by
  refine ⟨h.roots.trans k.roots, k.numbers.trans h.numbers, k.secrets.trans h.secrets, k.mask.trans h.mask,
    fun n hn => h.root n (k.root n hn), fun n hn => ?_⟩
  rcases k.closed n hn with hn | hn
  · exact h.closed n hn
  · exact Or.inr (h.root n hn)

theorem position_fail (s : Step) (e : Option RecordedFailure) : (s.fail e).head.position = s.head.position := by
  rw [fail_eq]

theorem position_closedStep (s : Step) (outcome : Option Failure) (now : Timestamp) :
    (closedStep s outcome now).head.position = s.head.position := by
  unfold closedStep settle
  cases outcome with
  | none => rfl
  | some f => exact position_fail _ _

theorem shuts_closeStep (t : Recorder) (outcome : Option Failure) : Shuts t (t.closeStep outcome) := by
  cases ho : t.openSteps with
  | nil =>
    rw [closeStep_nil t ho]
    exact Shuts.refl t
  | cons x outer =>
    rw [closeStep_cons t x outer ho]
    cases outer with
    | nil =>
      -- a root step joins the roots, with its number
      have hroot : rootNumber t = x.head.position := by
        rw [rootNumber_eq, stackNumbers, ho]
        rfl
      rw [List.map_nil, attach_nil _ rfl]
      refine ⟨List.prefix_append _ _, rfl, rfl, rfl, fun n hn => ?_, fun n hn => ?_⟩
      · rw [rootNumber_of_nil rfl] at hn
        cases hn
      · rw [positions_append] at hn
        rcases List.mem_append.1 hn with hn | hn
        · exact Or.inl hn
        · have hx : some n = (closedStep x outcome t.now).head.position := List.mem_singleton.1 hn
          rw [position_closedStep] at hx
          exact Or.inr (hroot.trans hx.symm)
    | cons y outer =>
      rw [List.map_cons, attach_cons _ _ _ rfl]
      refine ⟨List.prefix_refl _, rfl, rfl, rfl, fun n hn => ?_, fun n => Or.inl⟩
      rw [← hn, rootNumber_eq, rootNumber_eq]
      unfold stackNumbers
      rw [ho, List.map_cons, List.map_cons, List.map_cons, List.getLast?_cons_of_ne_nil (List.cons_ne_nil _ _),
        List.map_map]
      rfl

theorem shuts_closeTimes (n : Nat) (t : Recorder) : Shuts t (closeTimes n t) := by
  induction n generalizing t with
  | zero => exact Shuts.refl t
  | succ n ih => exact (shuts_closeStep t none).trans (ih _)

theorem shuts_closeAll (t : Recorder) : Shuts t t.closeAll := shuts_closeTimes _ t

theorem openSteps_closeStep (t : Recorder) (outcome : Option Failure) :
    (t.closeStep outcome).openSteps.length = t.openSteps.length - 1 := by
  cases ho : t.openSteps with
  | nil => rw [closeStep_nil t ho, ho]; rfl
  | cons x outer =>
    rw [closeStep_cons t x outer ho]
    cases outer with
    | nil => rw [List.map_nil, attach_nil _ rfl]; rfl
    | cons y outer => rw [List.map_cons, attach_cons _ _ _ rfl]; simp

theorem openSteps_closeAll (t : Recorder) : t.closeAll.openSteps = [] := by
  have htimes : ∀ (n : Nat) (r : Recorder), r.openSteps.length = n → (closeTimes n r).openSteps = [] := by
    intro n
    induction n with
    | zero => exact fun r hr => List.eq_nil_of_length_eq_zero hr
    | succ n ih =>
      intro r hr
      refine ih (r.closeStep none) ?_
      rw [openSteps_closeStep, hr]
      rfl
  exact htimes _ t rfl

/-! ## Later -/

/-- numbers that `r` has and `s` has not were free in `s`, whatever has happened in between -/
structure Later (s r : Recorder) : Prop where
  roots : s.roots <+: r.roots
  numbers : s.rootPositions ≤ r.rootPositions
  secrets : s.secrets <+: r.secrets
  mask : r.maskEnabled = s.maskEnabled
  root : ∀ n, rootNumber r = some n → rootNumber s = some n ∨ s.rootPositions ≤ n
  closed : ∀ n, some n ∈ Node.positions r.roots →
    some n ∈ Node.positions s.roots ∨ rootNumber s = some n ∨ s.rootPositions ≤ n

theorem Later.trans {s t r : Recorder} (h : Later s t) (k : Later t r) : Later s r := by
  have hroot : ∀ n, rootNumber t = some n ∨ t.rootPositions ≤ n → rootNumber s = some n ∨ s.rootPositions ≤ n := by
    intro n hn
    rcases hn with hn | hn
    · exact h.root n hn
    · exact Or.inr (h.numbers.trans hn)
  refine ⟨h.roots.trans k.roots, h.numbers.trans k.numbers, h.secrets.trans k.secrets, k.mask.trans h.mask,
    fun n hn => hroot n (k.root n hn), fun n hn => ?_⟩
  rcases k.closed n hn with hn | hn
  · exact h.closed n hn
  · exact Or.inr (hroot n hn)

theorem Shuts.later {s r : Recorder} (h : Shuts s r) : Later s r := by
  refine ⟨h.roots, h.numbers.ge, ?_, h.mask, fun n hn => Or.inl (h.root n hn), fun n hn => ?_⟩
  · rw [h.secrets]
  · rcases h.closed n hn with hn | hn
    · exact Or.inl hn
    · exact Or.inr (Or.inl hn)

/-- the recording between two moments, as far as a rollback from the later one depends on it -/
structure Trace (s r : Recorder) : Prop extends Later s r where
  kept : ∀ n < s.rootPositions, rootNumber s = some n → rootNumber r = some n → Continues s r

theorem Trace.trans {s t r : Recorder} (h : Trace s t) (k : Trace t r) : Trace s r := by
  refine ⟨h.toLater.trans k.toLater, fun n hn hs hr => ?_⟩
  -- the number of the step is not given again, so the step was open all the time
  have ht : rootNumber t = some n := by
    rcases k.root n hr with ht | hle
    · exact ht
    · exact absurd (lt_of_lt_of_le hn (h.numbers.trans hle)) (lt_irrefl n)
  exact (h.kept n hn hs ht).trans (k.kept n (lt_of_lt_of_le hn h.numbers) ht hr)

/-- what is recorded after a moment when no step was open is on top of it -/
theorem Later.continues_of_nil {s r : Recorder} (h : Later s r) (hs : s.openSteps = []) : Continues s r := by
  refine ⟨{ s with secrets := r.secrets, now := r.now }, ⟨rfl, rfl, ?_, h.secrets, rfl⟩, ?_⟩
  · rw [hs]
    exact .nil
  · refine ⟨h.roots, h.numbers, ?_, rfl, h.mask, rfl⟩
    rw [hs]
    exact Under.nil _

theorem Renamed.trace {s r : Recorder} (h : Renamed s r) : Trace s r := by
  refine ⟨⟨?_, h.numbers.ge, h.secrets, h.mask, fun n hn => ?_, fun n hn => ?_⟩, fun _ _ _ _ => h.continues⟩
  · rw [h.roots]
  · rw [← h.rootNumber_eq]
    exact Or.inl hn
  · rw [← h.roots]
    exact Or.inl hn

/-- recording that closes nothing and adds no root step -/
theorem Extends.trace {s r : Recorder} (h : Extends s r) (hroot : s.openSteps = [] → r.openSteps = [])
    (hclosed : Node.positions r.roots = Node.positions s.roots) : Trace s r := by
  refine ⟨⟨h.roots, h.numbers, ?_, h.mask, fun n hn => ?_, fun n hn => ?_⟩, fun _ _ _ _ => h.continues⟩
  · rw [h.secrets]
  · cases ho : s.openSteps with
    | nil =>
      rw [rootNumber_of_nil (hroot ho)] at hn
      cases hn
    | cons x outer =>
      rw [h.rootNumber_eq (by rw [ho]; exact List.cons_ne_nil _ _)] at hn
      exact Or.inl hn
  · rw [hclosed] at hn
    exact Or.inl hn

/-! ## Operations -/

theorem openSteps_attach_nil (r : Recorder) (n : Node) (ho : r.openSteps = []) : (r.attach n).openSteps = [] := by
  rw [attach_nil r ho]
  exact ho

theorem positions_attach (r : Recorder) (n : Node) (hn : n.toStep? = none) :
    Node.positions (r.attach n).roots = Node.positions r.roots := by
  cases ho : r.openSteps with
  | nil =>
    rw [attach_nil r ho, positions_append]
    simp [Node.positions, hn]
  | cons x outer => rw [attach_cons r x outer ho]

theorem trace_recordAction (r : Recorder) (a : Action) : Trace r (r.recordAction a) := by
  refine ((Extends.refl r).recordAction a).trace (fun ho => ?_) ?_
  · rw [recordAction_eq, ho]
    exact openSteps_attach_nil _ _ rfl
  · rw [recordAction_eq]
    exact positions_attach _ _ rfl

theorem trace_recordMessage (r : Recorder) (text : String) (level : Level) : Trace r (r.recordMessage text level) :=
  ((Extends.refl r).recordMessage text level).trace (openSteps_attach_nil r _) (positions_attach r _ rfl)

theorem trace_failCurrent (r : Recorder) (failure : Option Failure) : Trace r (r.failCurrent failure) := by
  refine ((Extends.refl r).failCurrent failure).trace (fun ho => ?_) ?_
  · unfold failCurrent
    rw [ho]
    exact ho
  · unfold failCurrent
    split
    · rfl
    · rfl

theorem stackNumbers_openStep (r : Recorder) (x : Step) :
    stackNumbers (r.openStep x) =
      (if r.openSteps = [] then some r.rootPositions else x.head.position) :: stackNumbers r := by
  unfold openStep stackNumbers
  cases ho : r.openSteps with
  | nil => rfl
  | cons y outer => rw [if_neg (List.cons_ne_nil _ _)]; rfl

theorem rootNumber_openStep_nil (r : Recorder) (x : Step) (ho : r.openSteps = []) :
    rootNumber (r.openStep x) = some r.rootPositions := by
  rw [rootNumber_eq, stackNumbers_openStep, if_pos ho, stackNumbers, ho]
  rfl

theorem rootNumber_openStep (r : Recorder) (x : Step) (ho : r.openSteps ≠ []) :
    rootNumber (r.openStep x) = rootNumber r :=
  ((Extends.refl r).openStep x).rootNumber_eq ho

theorem rootPositions_openStep_nil (r : Recorder) (x : Step) (ho : r.openSteps = []) :
    (r.openStep x).rootPositions = r.rootPositions + 1 := by
  unfold openStep
  rw [ho]

theorem rootPositions_openStep (r : Recorder) (x : Step) (ho : r.openSteps ≠ []) :
    (r.openStep x).rootPositions = r.rootPositions := by
  unfold openStep
  split
  · rename_i h
    exact absurd h ho
  · rfl

theorem roots_openStep (r : Recorder) (x : Step) : (r.openStep x).roots = r.roots := by
  unfold openStep
  split
  · rfl
  · rfl

theorem later_openStep (r : Recorder) (x : Step) : Later r (r.openStep x) := by
  have hext := (Extends.refl r).openStep x
  refine ⟨hext.roots, hext.numbers, ?_, hext.mask, fun n hn => ?_, fun n hn => ?_⟩
  · rw [hext.secrets]
  · by_cases ho : r.openSteps = []
    · rw [rootNumber_openStep_nil r x ho] at hn
      cases hn
      exact Or.inr le_rfl
    · rw [rootNumber_openStep r x ho] at hn
      exact Or.inl hn
  · rw [roots_openStep] at hn
    exact Or.inl hn

/-- the outer steps of a continuation are continued, too -/
theorem Continues.outer {s t : Recorder} {x : Step} {outer : List Step} (ho : s.openSteps = x :: outer)
    (h : Continues s t) : ∃ b, Renamed { s with openSteps := outer } b ∧ Extends b t ∧ b.depth < t.depth := by
  obtain ⟨b, hb, ht⟩ := h
  have hstack := hb.stack
  rw [ho] at hstack
  cases hbo : b.openSteps with
  | nil =>
    rw [hbo] at hstack
    cases hstack
  | cons y below =>
    rw [hbo] at hstack
    cases hstack with
    | cons _ hbelow =>
      have hunder := ht.stack
      have hlength := ht.stack.length_le
      rw [hbo] at hunder hlength
      obtain ⟨extra, kept, he, hk⟩ := hunder
      cases hk with
      | cons hyz hrest =>
        refine ⟨{ b with openSteps := below }, ⟨hb.roots, hb.numbers, hbelow, hb.secrets, hb.mask⟩,
          ⟨ht.roots, ht.numbers, ?_, ht.secrets, ht.mask, ht.now⟩, hlength⟩
        exact ⟨extra ++ [_], _, by rw [he, List.append_assoc]; rfl, hrest⟩

/-- what goes on inside a step goes on, too, when the step is closed -/
theorem Continues.bracket {s t : Recorder} {x : Step} (h : Continues (s.openStep x) t) (outcome : Option Failure) :
    Continues s (t.closeStep outcome) := by
  obtain ⟨y, n, hn, hopen⟩ : ∃ y n, s.rootPositions ≤ n ∧
      s.openStep x = { s with openSteps := y :: s.openSteps, rootPositions := n } := by
    unfold openStep
    split
    · rename_i ho
      exact ⟨_, _, Nat.le_succ _, by rw [ho]⟩
    · exact ⟨_, _, le_rfl, rfl⟩
  rw [hopen] at h
  obtain ⟨b, hb, ht, hd⟩ := h.outer rfl
  have hnumbered : Extends s { s with rootPositions := n } :=
    ⟨List.prefix_refl _, hn, Under.refl _, rfl, rfl, rfl⟩
  exact hnumbered.continues.trans ⟨b, hb, ht.closeStep hd outcome⟩

/-- a step that is opened and closed again leaves a trace like what was recorded in it -/
theorem Trace.bracket {s t : Recorder} {x : Step} (h : Trace (s.openStep x) t) (outcome : Option Failure) :
    Trace s (t.closeStep outcome) := by
  have hshut := shuts_closeStep t outcome
  refine ⟨((later_openStep s x).trans h.toLater).trans hshut.later, fun n hn hs hr => ?_⟩
  have ho : s.openSteps ≠ [] := by
    intro ho
    rw [rootNumber_of_nil ho] at hs
    cases hs
  have hcont : Continues (s.openStep x) t := by
    refine h.kept n ?_ ?_ (hshut.root n hr)
    · rw [rootPositions_openStep s x ho]
      exact hn
    · rw [rootNumber_openStep s x ho]
      exact hs
  exact hcont.bracket outcome

theorem later_addStep (r : Recorder) (name : String) : Later r (r.addStep name) :=
  (shuts_closeAll r).later.trans (later_openStep r.closeAll _)

theorem rootNumber_addStep (r : Recorder) (name : String) : rootNumber (r.addStep name) = some r.rootPositions := by
  unfold addStep
  rw [rootNumber_openStep_nil _ _ (openSteps_closeAll r), (shuts_closeAll r).numbers]

theorem trace_addStep (r : Recorder) (name : String) : Trace r (r.addStep name) := by
  refine ⟨later_addStep r name, fun n hn _ hr => ?_⟩
  rw [rootNumber_addStep] at hr
  cases hr
  exact absurd hn (lt_irrefl _)

/-- a rollback, whether or not the steps of the checkpoint are still open -/
theorem rootNumber_rollback (r : Recorder) (c : Checkpoint) {n : Nat} (h : rootNumber (r.rollback c) = some n) :
    rootNumber r = some n := by
  rw [rootNumber_eq] at *
  unfold stackNumbers rollback at *
  rw [List.map_reverse, List.getLast?_reverse] at h
  rw [← List.reverse_reverse r.openSteps, List.map_reverse, List.getLast?_reverse]
  cases hs : r.openSteps.reverse with
  | nil => rw [hs] at h; cases h
  | cons x xs =>
    rw [hs] at h
    cases hc : c.openStates with
    | nil => rw [hc] at h; cases h
    | cons note notes => rw [hc] at h; exact h

theorem Later.roots_rollback {s t : Recorder} (h : Later s t) : (t.rollback s.checkpoint).roots = s.roots := by
  obtain ⟨ns, hns⟩ := h.roots
  unfold rollback checkpoint
  rw [← hns, List.take_left]

theorem Trace.rollback {s t : Recorder} (h : Trace s t) : Trace s (t.rollback s.checkpoint) := by
  have hroots := h.roots_rollback
  refine ⟨⟨?_, le_rfl, h.secrets, h.mask, fun n hn => h.root n (rootNumber_rollback t _ hn), fun n hn => ?_⟩,
    fun n hn hs hr => ?_⟩
  · rw [hroots]
  · rw [hroots] at hn
    exact Or.inl hn
  · exact (h.kept n hn hs (rootNumber_rollback t _ hr)).rollback.continues

/-! ## No number left out -/

/-- the numbers of the outermost steps, closed and open -/
def numbers (r : Recorder) : List (Option Nat) := Node.positions r.roots ++ (stackNumbers r).getLast?.toList

/-- the outermost steps are numbered from 0 on -/
def Unbroken (r : Recorder) : Prop := numbers r = (List.range r.rootPositions).map some

theorem stackNumbers_attach (r : Recorder) (n : Node) : stackNumbers (r.attach n) = stackNumbers r := by
  cases ho : r.openSteps with
  | nil => rw [attach_nil r ho]; rfl
  | cons x outer =>
    rw [attach_cons r x outer ho]
    unfold stackNumbers
    rw [ho]
    rfl

theorem rootPositions_attach (r : Recorder) (n : Node) : (r.attach n).rootPositions = r.rootPositions := by
  unfold attach
  split
  · rfl
  · rfl

/-- other things than numbers may have changed -/
theorem Unbroken.congr {s r : Recorder} (h : Unbroken s) (hroots : Node.positions r.roots = Node.positions s.roots)
    (hstack : stackNumbers r = stackNumbers s) (hnext : r.rootPositions = s.rootPositions) : Unbroken r := by
  unfold Unbroken numbers at *
  rw [hroots, hstack, hnext, h]

/-- a node that is no step joins the record, or one that goes into a step -/
theorem Unbroken.attach {r : Recorder} (h : Unbroken r) {n : Node} (hn : r.openSteps = [] → n.toStep? = none) :
    Unbroken (r.attach n) := by
  refine h.congr ?_ (stackNumbers_attach r n) (rootPositions_attach r n)
  cases ho : r.openSteps with
  | nil => exact positions_attach r n (hn ho)
  | cons x outer => rw [attach_cons r x outer ho]

theorem Unbroken.openStep {r : Recorder} (h : Unbroken r) (x : Step) : Unbroken (r.openStep x) := by
  unfold Unbroken numbers at *
  rw [roots_openStep, stackNumbers_openStep]
  by_cases ho : r.openSteps = []
  · have hnone : stackNumbers r = [] := by rw [stackNumbers, ho]; rfl
    rw [hnone, List.getLast?_nil, Option.toList_none, List.append_nil] at h
    rw [if_pos ho, rootPositions_openStep_nil r x ho, hnone, h, List.range_succ, List.map_append]
    rfl
  · have hsome : stackNumbers r ≠ [] := mt List.map_eq_nil_iff.1 ho
    rw [rootPositions_openStep r x ho, List.getLast?_cons_of_ne_nil hsome]
    exact h

theorem Unbroken.closeStep {r : Recorder} (h : Unbroken r) (outcome : Option Failure) :
    Unbroken (r.closeStep outcome) := by
  cases ho : r.openSteps with
  | nil =>
    rw [closeStep_nil r ho]
    exact h
  | cons x outer =>
    rw [closeStep_cons r x outer ho]
    cases outer with
    | nil =>
      -- the number goes from the open step to the last root
      unfold Unbroken numbers stackNumbers at *
      rw [ho] at h
      rw [List.map_nil, attach_nil _ rfl, positions_append, List.append_assoc, ← h]
      refine congrArg (Node.positions r.roots ++ ·) (congrArg (fun p => [p]) ?_)
      exact position_closedStep x outcome r.now
    | cons y outer =>
      have hinner : Unbroken { r with
          openSteps := (y :: outer).map (marked (closedStep x outcome r.now).head.failed) } := by
        unfold Unbroken numbers stackNumbers at *
        rw [ho, List.map_cons, List.map_cons, List.getLast?_cons_of_ne_nil (List.cons_ne_nil _ _)] at h
        rw [List.map_map]
        exact h
      exact hinner.attach fun hnone => by cases hnone

theorem Unbroken.closeAll {r : Recorder} (h : Unbroken r) : Unbroken r.closeAll :=
  closeAll_keeps (fun _ hr => hr.closeStep none) h

theorem Unbroken.finish {r : Recorder} (h : Unbroken r) (failure : Option Failure) (screenshot : Option Attachment) :
    Unbroken (r.finish failure screenshot) := by
  have hclosed := h.closeAll
  have hnone : stackNumbers r.closeAll = [] := by rw [stackNumbers, openSteps_closeAll]; rfl
  have hlast : stackNumbers (r.finish failure screenshot) = [] := hnone
  unfold Unbroken numbers at *
  rw [hnone, List.getLast?_nil, Option.toList_none, List.append_nil] at hclosed
  rw [hlast, List.getLast?_nil, Option.toList_none, List.append_nil]
  unfold Recorder.finish
  rw [positions_append, hclosed, List.range_succ, List.map_append]
  rfl

end Recorder

end TestTrail
