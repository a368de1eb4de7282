/-
The attempts of a replay, counted.

A trial is code about to be replayed. Its attempts form a sequence: each one starts from the test before it
(`Trial.before`), has an outcome (`outcome`) and is behind it at a time that the clock then shows (`shown`). The sequence
goes on for ever, since it leaves open when the replay ends; an attempt ends the replay when its outcome is no transient
failure, or when the time shown is not before the deadline (`Trial.Ends`).

`run_of_ends` says that a replay is its sequence up to the first attempt that ends it: from the first attempt on, each
one that does not end the replay only leads to the next (`attemptsFrom_before`). Every sequence of outcomes and every
sequence of times is the one of some trial (`outcome_scripted`, `shown_scripted`).
-/
import TestTrail.Proofs.Calls.Equations

namespace TestTrail

variable {σ α : Type}

/-- a failure that may be gone when the same is tried again -/
def Outcome.isTransient : Outcome α → Bool
  | .failed f => f.transient
  | _ => false

theorem Outcome.isTransient_failed (f : Failure) : (failed f : Outcome α).isTransient = f.transient := rfl

theorem Outcome.eq_failed_of_isTransient {o : Outcome α} (h : o.isTransient = true) :
    ∃ f, o = .failed f ∧ f.transient = true := by
  cases o with
  | failed f => exact ⟨f, rfl, h⟩
  | ok a => cases h
  | crashed c => cases h

/-! ## One attempt -/

/-- What an attempt does. The driver, if there is one, is put back to the top document, and into the frame if one is
given; then the code runs. A switch that fails is the outcome, and the code does not run. -/
inductive Attempted (frame : Option String) (body : Body σ α) (r : TestRun σ) : Outcome α × TestRun σ → Prop where
  | noDriver (hr : r.driver = none) : Attempted frame body r (body r)
  | onTop {d top : Driver} (hr : r.driver = some d) (hframe : frame = none) (htop : d.toDefaultContent = (.ok (), top)) :
      Attempted frame body r (body { r with driver := some top })
  | inFrame {d top inside : Driver} {name : String} (hr : r.driver = some d) (hframe : frame = some name)
      (htop : d.toDefaultContent = (.ok (), top)) (hinside : top.toFrame name = (.ok (), inside)) :
      Attempted frame body r (body { r with driver := some inside })
  | topFails {d top : Driver} {f : Failure} (hr : r.driver = some d) (htop : d.toDefaultContent = (.error f, top)) :
      Attempted frame body r (.failed f, { r with driver := some top })
  | frameFails {d top inside : Driver} {name : String} {f : Failure} (hr : r.driver = some d)
      (hframe : frame = some name) (htop : d.toDefaultContent = (.ok (), top))
      (hinside : top.toFrame name = (.error f, inside)) :
      Attempted frame body r (.failed f, { r with driver := some inside })

section Switches

variable {frame : Option String} {body : Body σ α} {r after : TestRun σ}

theorem attempt_restored (h : Replay.restoreFrame frame r = (.ok (), after)) :
    Replay.attempt frame body r = body after := by
  unfold Replay.attempt
  rw [h]

theorem attempt_refused {f : Failure} (h : Replay.restoreFrame frame r = (.error f, after)) :
    Replay.attempt frame body r = (.failed f, after) := by
  unfold Replay.attempt
  rw [h]

theorem restoreFrame_undriven (hr : r.driver = none) : Replay.restoreFrame frame r = (.ok (), r) := by
  unfold Replay.restoreFrame
  rw [hr]

/-- without a frame, or when the top document cannot be reached, there is one switch only -/
theorem restoreFrame_top {d top : Driver} {result : Except Failure Unit} (hr : r.driver = some d)
    (htop : d.toDefaultContent = (result, top)) (hlast : frame = none ∨ ∃ f, result = .error f) :
    Replay.restoreFrame frame r = (result, { r with driver := some top }) := by
  unfold Replay.restoreFrame
  simp only [hr, htop]
  rcases hlast with rfl | ⟨f, rfl⟩
  · cases result <;> rfl
  · rfl

theorem restoreFrame_frame {d top inside : Driver} {name : String} {result : Except Failure Unit}
    (hr : r.driver = some d) (htop : d.toDefaultContent = (.ok (), top))
    (hinside : top.toFrame name = (result, inside)) :
    Replay.restoreFrame (some name) r = (result, { r with driver := some inside }) := by
  unfold Replay.restoreFrame
  simp only [hr, htop, hinside]

end Switches

theorem attempted_attempt (frame : Option String) (body : Body σ α) (r : TestRun σ) :
    Attempted frame body r (Replay.attempt frame body r) := by
  cases hr : r.driver with
  | none =>
    rw [attempt_restored (restoreFrame_undriven hr)]
    exact .noDriver hr
  | some d =>
    rcases htop : d.toDefaultContent with ⟨f | _, top⟩
    · rw [attempt_refused (restoreFrame_top hr htop (Or.inr ⟨f, rfl⟩))]
      exact .topFails hr htop
    · cases frame with
      | none =>
        rw [attempt_restored (restoreFrame_top hr htop (Or.inl rfl))]
        exact .onTop hr rfl htop
      | some name =>
        rcases hinside : top.toFrame name with ⟨f | _, inside⟩
        · rw [attempt_refused (restoreFrame_frame hr htop hinside)]
          exact .frameFails hr rfl htop hinside
        · rw [attempt_restored (restoreFrame_frame hr htop hinside)]
          exact .inFrame hr rfl htop hinside

/-! ## The sequence of attempts -/

/-- code about to be replayed -/
structure Trial (σ α : Type) where
  replay : Replay
  frame : Option String
  body : Body σ α
  start : TestRun σ

namespace Trial

/-- the replay of the code -/
def run (t : Trial σ α) : Replayed α × TestRun σ := t.replay.run t.frame t.body t.start

def deadline (t : Trial σ α) : Nat := t.start.clock.now + t.replay.timeout

/-- the test before each attempt, if all attempts before it were discarded -/
def before (t : Trial σ α) : Nat → TestRun σ
  | 0 => { t.start with clock := t.start.clock.afterReading }
  | n + 1 => Replay.goneBack t.replay t.deadline (t.before n) (Replay.attempt t.frame t.body (t.before n)).2

def outcome (t : Trial σ α) (n : Nat) : Outcome α := (Replay.attempt t.frame t.body (t.before n)).1

/-- the test behind each attempt -/
def behind (t : Trial σ α) (n : Nat) : TestRun σ := (Replay.attempt t.frame t.body (t.before n)).2

/-- what the clock shows behind each attempt -/
def shown (t : Trial σ α) (n : Nat) : Nat := (t.behind n).clock.now

/-- how long the replay pauses before the next attempt -/
def pauseBehind (t : Trial σ α) (n : Nat) : Nat := min t.replay.delay (t.deadline - t.shown n)

/-- an attempt behind which there is no other -/
def Ends (t : Trial σ α) (n : Nat) : Prop := (t.outcome n).isTransient = false ∨ t.deadline ≤ t.shown n

/-- the test behind the last attempt; of a transient failure the clock was read -/
def final (t : Trial σ α) (n : Nat) : TestRun σ :=
  if (t.outcome n).isTransient then { t.behind n with clock := (t.behind n).clock.afterReading } else t.behind n

variable {t : Trial σ α} {n : Nat}

theorem attempt_before (t : Trial σ α) (n : Nat) :
    Replay.attempt t.frame t.body (t.before n) = (t.outcome n, t.behind n) := rfl

theorem before_succ (t : Trial σ α) (n : Nat) :
    t.before (n + 1) = Replay.goneBack t.replay t.deadline (t.before n) (t.behind n) := rfl

theorem clock_before_succ (t : Trial σ α) (n : Nat) :
    (t.before (n + 1)).clock = (t.behind n).clock.afterReading.pause (t.pauseBehind n) := rfl

theorem transient_of_not_ends (h : ¬ t.Ends n) : (t.outcome n).isTransient = true :=
  Bool.eq_true_of_not_eq_false fun hn => h (Or.inl hn)

theorem shown_lt_of_not_ends (h : ¬ t.Ends n) : t.shown n < t.deadline :=
  Nat.not_le.1 fun hle => h (Or.inr hle)

theorem next?_before (h : ¬ t.Ends n) :
    Replay.next? t.replay t.deadline t.frame t.body (t.before n) = some (t.before (n + 1)) := by
  obtain ⟨f, ho, htransient⟩ := Outcome.eq_failed_of_isTransient (transient_of_not_ends h)
  unfold Replay.next?
  rw [attempt_before, ho]
  exact if_pos ⟨htransient, shown_lt_of_not_ends h⟩

theorem final_of_transient (h : (t.outcome n).isTransient = true) :
    t.final n = { t.behind n with clock := (t.behind n).clock.afterReading } := if_pos h

theorem final_of_settled (h : (t.outcome n).isTransient = false) : t.final n = t.behind n :=
  if_neg fun htransient => Bool.false_ne_true (h.symm.trans htransient)

theorem deadline_le_of_ends (h : t.Ends n) (htransient : (t.outcome n).isTransient = true) :
    t.deadline ≤ t.shown n :=
  h.resolve_left fun hsettled => Bool.false_ne_true (hsettled.symm.trans htransient)

theorem attemptsFrom_ends (h : t.Ends n) (fuel done : Nat) :
    Replay.attemptsFrom t.replay t.deadline t.frame t.body (fuel + 1) done (t.before n) =
      (⟨t.outcome n, Replay.counted (done + 1), (t.outcome n).isTransient⟩, t.final n) := by
  rw [Replay.attemptsFrom, attempt_before]
  cases htransient : (t.outcome n).isTransient with
  | true =>
    have hover : t.deadline ≤ (t.behind n).clock.now := deadline_le_of_ends h htransient
    obtain ⟨f, ho, hf⟩ := Outcome.eq_failed_of_isTransient htransient
    rw [final_of_transient htransient, ho]
    simp only [if_pos hf, if_pos hover]
  | false =>
    rw [final_of_settled htransient]
    cases ho : t.outcome n with
    | failed f =>
      rw [ho, Outcome.isTransient_failed] at htransient
      simp only [htransient, Bool.false_eq_true, if_false]
    | ok a => rfl
    | crashed c => rfl

/-- attempts that do not end the replay lead to the next one -/
theorem attemptsFrom_before (n fuel : Nat) (h : ∀ i < n, ¬ t.Ends i) :
    Replay.attemptsFrom t.replay t.deadline t.frame t.body (fuel + n) 0 (t.before 0) =
      Replay.attemptsFrom t.replay t.deadline t.frame t.body fuel n (t.before n) := by
  induction n generalizing fuel with
  | zero => rfl
  | succ n ih =>
    calc Replay.attemptsFrom t.replay t.deadline t.frame t.body (fuel + (n + 1)) 0 (t.before 0)
      _ = Replay.attemptsFrom t.replay t.deadline t.frame t.body (fuel + 1 + n) 0 (t.before 0) := by
        rw [Nat.add_comm n 1, Nat.add_assoc]
      _ = Replay.attemptsFrom t.replay t.deadline t.frame t.body (fuel + 1) n (t.before n) :=
        ih (fuel + 1) fun i hi => h i (Nat.lt_succ_of_lt hi)
      _ = Replay.attemptsFrom t.replay t.deadline t.frame t.body fuel (n + 1) (t.before (n + 1)) :=
        Replay.attemptsFrom_of_next (next?_before (h n (Nat.lt_succ_self n))) fuel n

/-- a replay is its sequence of attempts up to the first one that ends it -/
theorem run_of_ends (hfits : t.deadline < Replay.clockLimit) (hlimit : n < Replay.attemptLimit) (hends : t.Ends n)
    (hfirst : ∀ i < n, ¬ t.Ends i) :
    t.run = (⟨t.outcome n, Replay.counted (n + 1), (t.outcome n).isTransient⟩, t.final n) := by
  obtain ⟨fuel, hfuel⟩ : ∃ fuel, Replay.attemptLimit = fuel + 1 + n := ⟨Replay.attemptLimit - n - 1, by omega⟩
  calc t.run
    _ = Replay.attemptsFrom t.replay t.deadline t.frame t.body Replay.attemptLimit 0 (t.before 0) :=
      Replay.run_of_fits (Nat.not_le.2 hfits)
    _ = Replay.attemptsFrom t.replay t.deadline t.frame t.body (fuel + 1) n (t.before n) := by
      rw [hfuel]
      exact attemptsFrom_before n (fuel + 1) hfirst
    _ = (⟨t.outcome n, Replay.counted (n + 1), (t.outcome n).isTransient⟩, t.final n) :=
      attemptsFrom_ends hends fuel n

/-- a replay whose first attempt is no transient failure makes no other -/
theorem run_of_settled {e : Replay} {frame : Option String} {body : Body σ α} {r : TestRun σ}
    (hfits : r.clock.now + e.timeout < Replay.clockLimit)
    (h : (Replay.attempt frame body { r with clock := r.clock.afterReading }).1.isTransient = false) :
    e.run frame body r =
      (⟨(Replay.attempt frame body { r with clock := r.clock.afterReading }).1, 1, false⟩,
        (Replay.attempt frame body { r with clock := r.clock.afterReading }).2) := by
  let t : Trial σ α := ⟨e, frame, body, r⟩
  have hsettled : (t.outcome 0).isTransient = false := h
  have hrun : t.run = (⟨t.outcome 0, Replay.counted 1, (t.outcome 0).isTransient⟩, t.final 0) :=
    run_of_ends hfits (by decide) (Or.inl hsettled) fun i hi => absurd hi (Nat.not_lt_zero i)
  rw [final_of_settled hsettled, hsettled] at hrun
  exact hrun

theorem counted_of_lt (h : n < Word.limit32) : Replay.counted n = n := Nat.mod_eq_of_lt h

theorem lt_attemptLimit (h : n < Word.limit32) : n < Replay.attemptLimit :=
  h.trans (by decide)

/-- a pause does not reach beyond the deadline -/
theorem shown_add_pause_le (h : t.shown n < t.deadline) : t.shown n + t.pauseBehind n ≤ t.deadline := by
  unfold pauseBehind
  omega

/-! ## Any sequence -/

/-- a trial whose attempts have given outcomes, on a clock with given readings -/
def scripted (replay : Replay) (outcomes : Nat → Outcome α) (times : Nat → Nat) : Trial Nat α :=
  { replay := replay, frame := none, body := fun r => (outcomes r.own, { r with own := r.own + 1 })
    start := TestRun.start "trial" {} (Registry.ofList []) { reading := fun _ n => times n } {} Recorder.noon 0 }

section Scripted

variable (replay : Replay) (outcomes : Nat → Outcome α) (times : Nat → Nat)

theorem before_scripted (n : Nat) :
    ((scripted replay outcomes times).before n).driver = none ∧
      ((scripted replay outcomes times).before n).own = n ∧
      ((scripted replay outcomes times).before n).clock.readings = n + 1 ∧
      ((scripted replay outcomes times).before n).clock.reading = fun _ n => times n := by
  induction n with
  | zero => exact ⟨rfl, rfl, rfl, rfl⟩
  | succ n ih =>
    obtain ⟨hdriver, hown, hreadings, hreading⟩ := ih
    rw [before_succ]
    unfold behind
    rw [attempt_restored (restoreFrame_undriven hdriver)]
    exact ⟨hdriver, congrArg (· + 1) hown, congrArg (· + 1) hreadings, hreading⟩

theorem attempt_scripted (n : Nat) :
    Replay.attempt (scripted replay outcomes times).frame (scripted replay outcomes times).body
        ((scripted replay outcomes times).before n) =
      (outcomes n, { (scripted replay outcomes times).before n with own := n + 1 }) := by
  obtain ⟨hdriver, hown, _, _⟩ := before_scripted replay outcomes times n
  rw [attempt_restored (restoreFrame_undriven hdriver)]
  show (outcomes ((scripted replay outcomes times).before n).own, _) = _
  rw [hown]

theorem outcome_scripted (n : Nat) : (scripted replay outcomes times).outcome n = outcomes n := by
  unfold outcome
  rw [attempt_scripted]

theorem shown_scripted (n : Nat) : (scripted replay outcomes times).shown n = times (n + 1) := by
  obtain ⟨_, _, hreadings, hreading⟩ := before_scripted replay outcomes times n
  unfold shown behind
  rw [attempt_scripted]
  unfold Clock.now
  rw [hreading, hreadings]

theorem ends_scripted (n : Nat) :
    (scripted replay outcomes times).Ends n ↔
      (outcomes n).isTransient = false ∨ times 0 + replay.timeout ≤ times (n + 1) := by
  unfold Ends
  rw [outcome_scripted, shown_scripted]
  exact Iff.rfl

end Scripted

/-! ## The law -/

/-- **A replay goes on exactly while it may.** Let the deadline fit the clock, and let attempt `n`, counted from zero, be
the first one whose outcome is no transient failure or behind which the clock shows the deadline or a later time; there
are fewer than 2^32 attempts up to it. Then the replay makes these `n + 1` attempts and ends with the outcome of the last
one, given up exactly if that is a transient failure; then the deadline has passed. Every attempt before it failed for
the moment and was over before the deadline, and the pause behind it is the delay, or what is left until the deadline.
Without a timeout, on a clock that does not go back, the first attempt is the last. Before every attempt the driver, if
there is one, is put back to the top document and into the frame, and a failure of that is the attempt's outcome. -/
theorem attempts_of_replay (t : Trial σ α) (n : Nat) (hfits : t.deadline < Replay.clockLimit) (hends : t.Ends n)
    (hfirst : ∀ i < n, ¬ t.Ends i) (hcount : n + 1 < Word.limit32) :
    t.run.1.attempts = n + 1 ∧ t.run.1.result = t.outcome n ∧
      (t.run.1.exhausted = true ↔ (t.outcome n).isTransient = true) ∧ t.run.2 = t.final n ∧
      ((t.outcome n).isTransient = true → t.deadline ≤ t.shown n) ∧
      (∀ i < n, (t.outcome i).isTransient = true ∧ t.shown i < t.deadline ∧
        (t.before (i + 1)).clock =
          (t.behind i).clock.afterReading.pause (min t.replay.delay (t.deadline - t.shown i)) ∧
        t.shown i + min t.replay.delay (t.deadline - t.shown i) ≤ t.deadline) ∧
      (t.replay.timeout = 0 → t.start.clock.now ≤ t.shown 0 → n = 0) ∧
      ∀ i ≤ n, Attempted t.frame t.body (t.before i) (t.outcome i, t.behind i) := by
  have hrun : t.run = (⟨t.outcome n, n + 1, (t.outcome n).isTransient⟩, t.final n) := by
    have hrun := run_of_ends hfits (lt_attemptLimit (Nat.lt_of_succ_lt hcount)) hends hfirst
    rwa [counted_of_lt hcount] at hrun
  rw [hrun]
  refine ⟨rfl, rfl, Iff.rfl, rfl, ?_, ?_, ?_, ?_⟩
  · exact deadline_le_of_ends hends
  · intro i hi
    have hlt := shown_lt_of_not_ends (hfirst i hi)
    exact ⟨transient_of_not_ends (hfirst i hi), hlt, clock_before_succ t i, shown_add_pause_le hlt⟩
  · intro htimeout hnow
    by_contra hn
    refine hfirst 0 (Nat.pos_of_ne_zero hn) (Or.inr ?_)
    unfold deadline
    rw [htimeout]
    exact hnow
  · exact fun i _ => attempted_attempt t.frame t.body (t.before i)

/-- a click on a page that is still loading: twice there is nothing to click on -/
def loadingPage : Trial Nat String :=
  scripted ⟨10, 4⟩ (fun i => if i < 2 then .failed ⟨.notFound, "button"⟩ else .ok "clicked") fun i => 4 * i + 1

/-- the third click works, after a pause that the deadline cuts short -/
theorem third_click_works :
    loadingPage.deadline = 11 ∧ loadingPage.shown 1 = 9 ∧ loadingPage.Ends 2 ∧ (∀ i < 2, ¬ loadingPage.Ends i) ∧
      (loadingPage.before 2).clock.paused = 4 + 2 ∧
      loadingPage.run.1.attempts = 3 ∧ loadingPage.run.1.result = .ok "clicked" := by
  have hends : loadingPage.Ends 2 := (ends_scripted _ _ _ 2).2 (by decide)
  have hfirst : ∀ i < 2, ¬ loadingPage.Ends i := by
    simp only [loadingPage, ends_scripted]
    decide
  obtain ⟨hattempts, hresult, _⟩ := attempts_of_replay loadingPage 2 (by decide) hends hfirst (by decide)
  exact ⟨by decide, by decide, hends, hfirst, by decide, hattempts, hresult.trans (by decide)⟩

end Trial

end TestTrail
