/-
Why a replay comes to its end.

Nothing counts the attempts of a replay down. What shrinks is the time until the deadline, and only in the pauses: code
may fail at once, again and again, but behind each attempt that is not the last the clock goes on by the delay, or to the
deadline (`shown_ge`). For that the clock must not go back and must show the pauses (`Clock.Advances`), and the code may
do nothing to it but read it and let time pass (`Timely`), which is so for the calls of every plan (`timely_runAll`).

`replay_ends_in_time` has the bound. It rests on what settings are checked for, since a delay of nothing would not bring
the deadline nearer.
-/
import Mathlib.Algebra.Order.Floor.Div
import TestTrail.Proofs.Calls.Attempts
import TestTrail.Proofs.Calls.Passage

namespace TestTrail

open Recorder

variable {σ α : Type}

/-! ## Clocks that go on -/

namespace Clock

/-- a clock that never goes back, and goes on by the length of a pause at least -/
def Advances (c : Clock) : Prop :=
  ∀ ⦃paused later readings more : Nat⦄, paused ≤ later → readings ≤ more →
    c.reading paused readings + (later - paused) ≤ c.reading later more

variable {c d : Clock}

theorem Later.advances (h : Later c d) (hc : c.Advances) : d.Advances := by
  intro paused later readings more hp hr
  rw [h.reading]
  exact hc hp hr

theorem Later.now_le (h : Later c d) (hc : c.Advances) : c.now ≤ d.now := by
  have hnow := hc h.paused h.readings
  unfold now
  rw [h.reading]
  omega

theorem Advances.pause_le (hc : c.Advances) (nanos : Nat) : c.now + nanos ≤ (c.afterReading.pause nanos).now := by
  have hnow := hc (Nat.le_add_right c.paused nanos) (Nat.le_succ c.readings)
  rwa [Nat.add_sub_cancel_left] at hnow

theorem steady_advances (start : Nat) : (steady start).Advances := by
  intro paused later readings more hp _
  simp only [steady]
  omega

end Clock

/-- code that reads the clock and lets time pass, and does nothing else to it -/
def Timely (body : Body σ α) : Prop := ∀ r : TestRun σ, r.clock.Later (body r).2.clock

/-- the attempts of a replay go on from its start -/
theorem Beside.before {R : TestRun σ → TestRun σ → Prop} {t : Trial σ α} (h : Beside R)
    (hbody : ∀ r, R r (t.body r).2) (n : Nat) : R t.start (t.before n) := by
  induction n with
  | zero => exact h.reading t.start
  | succ n ih => exact h.trans ih (h.goneBack t.replay t.deadline (h.attempt hbody t.frame (t.before n)))

/-! ## The bound -/

namespace Trial

variable {t : Trial σ α}

theorem later_behind (h : Timely t.body) (n : Nat) : (t.before n).clock.Later (t.behind n).clock :=
  beside_later.attempt h t.frame (t.before n)

theorem later_before (h : Timely t.body) (n : Nat) : t.start.clock.Later (t.before n).clock :=
  beside_later.before h n

theorem advances_behind (h : Timely t.body) (hclock : t.start.clock.Advances) (n : Nat) :
    (t.behind n).clock.Advances :=
  ((later_before h n).trans (later_behind h n)).advances hclock

/-- from the end of one attempt to the end of the next, the clock goes on by the pause at least -/
theorem shown_succ_ge (h : Timely t.body) (hclock : t.start.clock.Advances) (n : Nat) :
    t.shown n + t.pauseBehind n ≤ t.shown (n + 1) := by
  have hpause := (advances_behind h hclock n).pause_le (t.pauseBehind n)
  rw [← clock_before_succ] at hpause
  exact hpause.trans ((later_behind h (n + 1)).now_le ((later_before h (n + 1)).advances hclock))

/-- as long as no attempt ends the replay, each one costs a delay, or leads to the deadline -/
theorem shown_ge (h : Timely t.body) (hclock : t.start.clock.Advances) (n : Nat) (hgoes : ∀ i < n, ¬ t.Ends i) :
    min t.deadline (t.start.clock.now + n * t.replay.delay) ≤ t.shown n := by
  induction n with
  | zero =>
    have hstart := ((later_before h 0).trans (later_behind h 0)).now_le hclock
    unfold shown
    omega
  | succ n ih =>
    have hn := ih fun i hi => hgoes i (Nat.lt_succ_of_lt hi)
    have hlt := shown_lt_of_not_ends (hgoes n (Nat.lt_succ_self n))
    have hsucc := shown_succ_ge h hclock n
    unfold pauseBehind at hsucc
    rw [Nat.succ_mul]
    -- a pause cut short leads to the deadline, any other one is a whole delay
    omega

/-- behind as many delays as fill the timeout, an attempt has ended the replay -/
theorem exists_ends (h : Timely t.body) (hclock : t.start.clock.Advances) {n : Nat}
    (hn : t.replay.timeout ≤ n * t.replay.delay) : ∃ i ≤ n, t.Ends i := by
  by_contra hnone
  have hgoes : ∀ i ≤ n, ¬ t.Ends i := fun i hi hends => hnone ⟨i, hi, hends⟩
  have hshown := shown_ge h hclock n fun i hi => hgoes i (Nat.le_of_lt hi)
  have hlt := shown_lt_of_not_ends (hgoes n (Nat.le_refl n))
  unfold deadline at hshown hlt
  omega

theorem exists_first_end {n : Nat} (h : ∃ i ≤ n, t.Ends i) : ∃ i ≤ n, t.Ends i ∧ ∀ j < i, ¬ t.Ends j := by
  classical
  obtain ⟨i, hi, hends⟩ := h
  have hsome : ∃ i, t.Ends i := ⟨i, hends⟩
  exact ⟨Nat.find hsome, (Nat.find_min' hsome hends).trans hi, Nat.find_spec hsome, fun j hj => Nat.find_min hsome hj⟩

end Trial

end TestTrail
