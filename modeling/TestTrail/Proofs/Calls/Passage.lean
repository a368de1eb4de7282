/-
What a call does to the test around the record.

Apart from recording, a call does four things to a test: it reads the clock, lets time pass, uses the driver, and does
one of these after another. A relation between a test and the same test later that holds of each of them, and of any
change to the record (`Beside`), holds of every call of a plan (`Beside.runAll`), however often a replay goes back. A
`Passage` does not even tell tests apart that are alike. So the clock only goes on (`Clock.Later`), and what was declared
and set stays (`Onward`).
-/
import TestTrail.Proofs.Calls.Independence

namespace TestTrail

open Recorder

variable {σ α : Type}

/-- a relation between a test and the same test later that does not look at the record, as calls respect it -/
structure Beside (R : TestRun σ → TestRun σ → Prop) : Prop where
  record : ∀ r f, R r (r.record f)
  trans : ∀ {r s t}, R r s → R s t → R r t
  reading : ∀ r, R r { r with clock := r.clock.afterReading }
  pause : ∀ r nanos, R r (r.pause nanos)
  drive : ∀ r driver, R r { r with driver := some driver }

namespace Beside

variable {R : TestRun σ → TestRun σ → Prop} {body : Body σ α}

theorem refl (h : Beside R) (r : TestRun σ) : R r r := h.record r id

theorem andThen {first rest : Body σ Unit} (h : Beside R) (hfirst : ∀ r, R r (first r).2)
    (hrest : ∀ r, R r (rest r).2) (r : TestRun σ) : R r (andThen first rest r).2 := by
  have hr := hfirst r
  unfold TestTrail.andThen
  rcases hp : first r with ⟨a | f | c, after⟩ <;> rw [hp] at hr
  · exact h.trans hr (hrest after)
  · exact hr
  · exact hr

/-! ## Replays -/

theorem restoreFrame (h : Beside R) (frame : Option String) (r : TestRun σ) :
    R r (Replay.restoreFrame frame r).2 := by
  unfold Replay.restoreFrame
  split
  · exact h.refl r
  · split
    · exact h.drive r _
    · exact h.drive r _

theorem attempt (h : Beside R) (hbody : ∀ r, R r (body r).2) (frame : Option String) (r : TestRun σ) :
    R r (Replay.attempt frame body r).2 := by
  have hswitched := h.restoreFrame frame r
  rcases Replay.attempt_eq frame body r with ⟨f, hattempt⟩ | hattempt
  · rw [hattempt]
    exact hswitched
  · rw [hattempt]
    exact h.trans hswitched (hbody _)

theorem goneBack (h : Beside R) (e : Replay) (deadline : Nat) {r after : TestRun σ} (hafter : R r after) :
    R r (Replay.goneBack e deadline r after) :=
  h.trans hafter (h.trans (h.reading after) (h.trans (h.record _ _) (h.pause _ _)))

/-- attempt by attempt, each from the test that the one before it was gone back to -/
theorem attemptsFrom (h : Beside R) (hbody : ∀ r, R r (body r).2) (e : Replay) (deadline : Nat)
    (frame : Option String) (fuel done : Nat) (r : TestRun σ) :
    R r (Replay.attemptsFrom e deadline frame body fuel done r).2 := by
  induction fuel generalizing done r with
  | zero => exact h.refl r
  | succ fuel ih =>
    have hafter := h.attempt hbody frame r
    rw [Replay.attemptsFrom]
    rcases hp : Replay.attempt frame body r with ⟨a | f | c, after⟩ <;> rw [hp] at hafter
    · exact hafter
    · simp only
      split
      · split
        · exact h.trans hafter (h.reading after)
        · exact h.trans (h.goneBack e deadline hafter) (ih (done + 1) _)
      · exact hafter
    · exact hafter

theorem replay (h : Beside R) (hbody : ∀ r, R r (body r).2) (e : Replay) (frame : Option String) (r : TestRun σ) :
    R r (e.run frame body r).2 := by
  by_cases hlimit : Replay.clockLimit ≤ r.clock.now + e.timeout
  · rw [Replay.run_of_overflow hlimit]
    exact h.reading r
  · rw [Replay.run_of_fits hlimit]
    generalize Replay.attemptLimit = fuel
    exact h.trans (h.reading r) (h.attemptsFrom hbody e _ frame fuel 0 _)

/-! ## Calls -/

theorem execute (h : Beside R) (hbody : ∀ r, R r (body r).2) (op : Operation) (frame : Option String)
    (r : TestRun σ) : R r (TestRun.execute op frame body r).2 := by
  by_cases hr : op.replay = true
  · rw [TestRun.execute_replay hr, TestRun.answerOf_run]
    exact h.replay hbody _ frame r
  · rw [TestRun.execute_once hr]
    exact hbody r

theorem warn (h : Beside R) (warning : Option String) (r : TestRun σ) : R r (TestRun.warn warning r) := by
  cases warning with
  | none => exact h.refl r
  | some text => exact h.record r fun rec => rec.recordMessage text .warning

section Ends

variable {r : TestRun σ} {p : (Outcome α × Option String) × TestRun σ}

theorem closing (h : Beside R) (hp : R r p.2) : R r (TestRun.closing p).2 :=
  h.trans hp (h.trans (h.warn p.1.2 p.2) (h.record _ fun rec => rec.closeStep p.1.1.failure?))

theorem acting (h : Beside R) (hp : R r p.2) (name : String) (op : Operation) (i : Invocation) :
    R r (TestRun.acting name op i p).2 :=
  h.trans hp (h.trans (h.record _ _) (h.warn p.1.2 _))

theorem recordPrimitives (h : Beside R) (hp : R r p.2) (c : Composite) : R r (TestRun.recordPrimitives c p).2 :=
  h.trans hp (h.record _ fun rec =>
    c.primitives.foldl (fun rec x => rec.recordAction (TestRun.primitiveAction c p.1.1 p.2.recorder.now x)) rec)

end Ends

theorem intercept (h : Beside R) (hbody : ∀ r, R r (body r).2) (i : Invocation) (r : TestRun σ) :
    R r (TestRun.intercept i body r).2 := by
  cases hop : r.registry.get? i.operation with
  | none =>
    rw [TestRun.intercept_undeclared hop]
    exact h.refl r
  | some op =>
    by_cases hk : op.kind = .action
    · rw [TestRun.intercept_action hop hk, TestRun.interceptAction_eq]
      exact h.acting (h.execute hbody op i.frame r) _ op i
    · rw [TestRun.intercept_step hop hk]
      by_cases hm : r.settings.manualTestSteps = true
      · rw [TestRun.interceptStep_manual op i body hm]
        exact h.execute hbody op i.frame r
      · rw [TestRun.interceptStep_eq op i body hm]
        exact h.closing (h.trans (h.record r _) (h.execute hbody op i.frame _))

theorem command (h : Beside R) (name : String) (element : Option Element) (args : List String) (r : TestRun σ) :
    R r (TestRun.command name element args r).2 := by
  unfold TestRun.command
  split
  · exact h.refl r
  · exact h.trans (h.drive r _) (h.pause _ _)

theorem commands (h : Beside R) (ps : List Primitive) (r : TestRun σ) : R r (TestRun.commands ps r).2 := by
  induction ps generalizing r with
  | nil => exact h.refl r
  | cons p ps ih =>
    have hfirst := h.command p.command p.element p.args r
    rw [TestRun.commands]
    rcases hp : TestRun.command p.command p.element p.args r with ⟨a | f | c, after⟩ <;> rw [hp] at hfirst
    · exact h.trans hfirst (ih after)
    · exact hfirst
    · exact hfirst

theorem unit (h : Beside R) (ps : List Primitive) (r : TestRun σ) : R r (TestRun.unit ps r).2 := by
  unfold TestRun.unit
  split
  · exact h.refl r
  · exact h.commands ps r

theorem performComposite (h : Beside R) (c : Composite) (r : TestRun σ) : R r (TestRun.performComposite c r).2 := by
  have hunit := h.execute (h.unit c.primitives) (TestRun.compositeOperation c r) none
    (r.record fun rec => rec.openStep (TestRun.compositeStep c r))
  rw [TestRun.performComposite_eq]
  exact h.closing (h.trans (h.record r _) (h.recordPrimitives hunit c))

theorem performComposites (h : Beside R) (cs : List Composite) (r : TestRun σ) :
    R r (TestRun.performComposites cs r).2 := by
  induction cs generalizing r with
  | nil => exact h.refl r
  | cons c cs ih =>
    rw [TestRun.performComposites_cons]
    exact h.andThen (h.performComposite c) ih r

mutual

theorem run (h : Beside R) (c : Call) (r : TestRun σ) : R r (c.run r).2 := by
  cases c with
  | operation target command children =>
    rw [Call.run]
    split
    · exact h.intercept (h.command _ _ _) target r
    · exact h.intercept (h.runAll children) target r
  | composites batch => exact h.performComposites batch r
  | step name => exact h.record r fun rec => rec.addStep name
  | message text level => exact h.record r fun rec => rec.recordMessage text level
  | secret value => exact h.record r fun rec => rec.addSecret value
  | fail text => exact h.record r fun rec => rec.failCurrent (some ⟨.assertion, text⟩)

theorem runAll (h : Beside R) (cs : List Call) (r : TestRun σ) : R r (Call.runAll cs r).2 := by
  cases cs with
  | nil => exact h.refl r
  | cons c cs =>
    rw [Call.runAll_cons]
    exact h.andThen (h.run c) (h.runAll cs) r

end

end Beside

/-- a relation between a test and the same test later, as calls respect it -/
structure Passage (R : TestRun σ → TestRun σ → Prop) : Prop where
  alike : ∀ {r t}, Alike r t → R r t
  trans : ∀ {r s t}, R r s → R s t → R r t
  reading : ∀ r, R r { r with clock := r.clock.afterReading }
  pause : ∀ r nanos, R r (r.pause nanos)
  drive : ∀ r driver, R r { r with driver := some driver }

namespace Passage

theorem beside {R : TestRun σ → TestRun σ → Prop} (h : Passage R) : Beside R where
  record r f := h.alike (alike_record r f)
  trans := h.trans
  reading := h.reading
  pause := h.pause
  drive := h.drive

end Passage

/-! ## Time -/

namespace Clock

/-- the same clock at a later moment -/
structure Later (c d : Clock) : Prop where
  reading : d.reading = c.reading
  paused : c.paused ≤ d.paused
  readings : c.readings ≤ d.readings

variable {c d e : Clock}

theorem Later.refl (c : Clock) : Later c c := ⟨rfl, Nat.le_refl _, Nat.le_refl _⟩

theorem Later.trans (h : Later c d) (k : Later d e) : Later c e :=
  ⟨k.reading.trans h.reading, h.paused.trans k.paused, h.readings.trans k.readings⟩

theorem later_afterReading (c : Clock) : Later c c.afterReading := ⟨rfl, Nat.le_refl _, Nat.le_succ _⟩

theorem later_pause (c : Clock) (nanos : Nat) : Later c (c.pause nanos) := ⟨rfl, Nat.le_add_right _ _, Nat.le_refl _⟩

end Clock

theorem passage_later : Passage fun r t : TestRun σ => r.clock.Later t.clock where
  alike h := by
    rw [h.clock]
    exact Clock.Later.refl _
  trans h k := h.trans k
  reading r := Clock.later_afterReading r.clock
  pause r nanos := Clock.later_pause r.clock nanos
  drive r _ := Clock.Later.refl r.clock

theorem beside_later : Beside fun r t : TestRun σ => r.clock.Later t.clock := passage_later.beside

/-! ## What is declared and set -/

/-- the same test later: other things may have been recorded and done with the driver -/
structure Onward (r t : TestRun σ) : Prop where
  registry : t.registry.bare = r.registry.bare
  settings : t.settings.bare = r.settings.bare
  clock : r.clock.Later t.clock

theorem passage_onward : Passage fun r t : TestRun σ => Onward r t where
  alike h := ⟨h.registry.symm, h.settings.symm, passage_later.alike h⟩
  trans h k := ⟨k.registry.trans h.registry, k.settings.trans h.settings, h.clock.trans k.clock⟩
  reading r := ⟨rfl, rfl, passage_later.reading r⟩
  pause r nanos := ⟨rfl, rfl, passage_later.pause r nanos⟩
  drive r driver := ⟨rfl, rfl, passage_later.drive r driver⟩

theorem beside_onward : Beside fun r t : TestRun σ => Onward r t := passage_onward.beside

namespace Onward

variable {r t : TestRun σ}

theorem declared (h : Onward r t) (id : String) :
    (t.registry.get? id).map Operation.bare = (r.registry.get? id).map Operation.bare := by
  rw [← get?_bare, ← get?_bare, h.registry]

theorem get?_eq_none (h : Onward r t) (id : String) : t.registry.get? id = none ↔ r.registry.get? id = none := by
  rw [← Option.map_eq_none_iff (f := Operation.bare), h.declared, Option.map_eq_none_iff]

theorem isAction (h : Onward r t) (id : String) : Call.isAction t.registry id = Call.isAction r.registry id := by
  rw [← isAction_bare, h.registry, isAction_bare]

/-- replays have the same budget and the same delay -/
theorem replay (h : Onward r t) : Replay.ofSettings t.settings = Replay.ofSettings r.settings := by
  have hbare : Replay.ofSettings t.settings.bare = Replay.ofSettings r.settings.bare := by rw [h.settings]
  exact hbare

theorem timeout (h : Onward r t) : t.settings.replayTimeoutNanos = r.settings.replayTimeoutNanos :=
  congrArg Replay.timeout h.replay

end Onward

end TestTrail
