/-
When a run crashes.

`Call.begun` follows the run of a call through all attempts and has the replays that begin in it, in order, each with the
test it begins in. A replay whose deadline does not fit the clock is the last one, since it crashes at once; so a run
crashes for a deadline exactly if it has such a replay (`Accounted`). The other crash of a run is attempts without end,
and these there are only on a clock that stands still: with a delay between attempts and a clock that goes on, every
replay comes to its end (`ends_run`). `accounts_runAll` has both for the calls of every test.
-/
import TestTrail.Proofs.Calls.Deadlines
import TestTrail.Proofs.Calls.Nesting
import TestTrail.Proofs.Calls.Scripts

namespace TestTrail

variable {σ α : Type}

/-- a replay that begins in a run -/
structure Begun (σ : Type) where
  {α : Type}
  trial : Trial σ α

namespace Begun

/-- the deadline does not fit the clock -/
def Overflows (x : Begun σ) : Prop := Replay.clockLimit ≤ x.trial.deadline

instance (x : Begun σ) : Decidable x.Overflows := inferInstanceAs (Decidable (_ ≤ _))

/-- the replay begins later in the run, with the timeout and the delay that are set -/
structure Within (r : TestRun σ) (x : Begun σ) : Prop where
  onward : Onward r x.trial.start
  replay : x.trial.replay = Replay.ofSettings r.settings

theorem Within.before {r t : TestRun σ} {x : Begun σ} (h : Onward r t) (hx : x.Within t) : x.Within r :=
  ⟨passage_onward.trans h hx.onward, hx.replay.trans h.replay⟩

end Begun

/-! ## The replays of a run -/

namespace Replay

/-- the replays in one attempt -/
def attemptBegun (frame : Option String) (inside : TestRun σ → List (Begun σ)) (r : TestRun σ) : List (Begun σ) :=
  match restoreFrame frame r with
  | (.ok (), r) => inside r
  | (.error _, _) => []

/-- the replays in all attempts, the discarded ones included -/
def begunFrom (e : Replay) (deadline : Nat) (frame : Option String) (body : Body σ α)
    (inside : TestRun σ → List (Begun σ)) : Nat → TestRun σ → List (Begun σ)
  | 0, _ => []
  | fuel + 1, r =>
    attemptBegun frame inside r ++
      match next? e deadline frame body r with
      | some next => begunFrom e deadline frame body inside fuel next
      | none => []

/-- a replay, and those in its attempts -/
def begun (e : Replay) (frame : Option String) (body : Body σ α) (inside : TestRun σ → List (Begun σ))
    (r : TestRun σ) : List (Begun σ) :=
  ⟨⟨e, frame, body, r⟩⟩ ::
    if clockLimit ≤ r.clock.now + e.timeout then []
    else
      begunFrom e (r.clock.now + e.timeout) frame body inside attemptLimit
        { r with clock := r.clock.afterReading }

end Replay

namespace TestRun

/-- driver commands replay nothing inside them -/
def noneBegun (_ : TestRun σ) : List (Begun σ) := []

/-- one after another, unless the first does not succeed -/
def andThenBegun (first : Body σ Unit) (inside more : TestRun σ → List (Begun σ)) (r : TestRun σ) : List (Begun σ) :=
  inside r ++
    match first r with
    | (.ok _, r) => more r
    | _ => []

/-- the replays in a call of an operation -/
def operationBegun (op : Operation) (frame : Option String) (body : Body σ α) (inside : TestRun σ → List (Begun σ))
    (r : TestRun σ) : List (Begun σ) :=
  if op.replay then (Replay.ofSettings r.settings).begun frame body inside r else inside r

def compositeBegun (c : Composite) (r : TestRun σ) : List (Begun σ) :=
  operationBegun (compositeOperation c r) none (unit c.primitives) noneBegun
    (r.record fun rec => rec.openStep (compositeStep c r))

def compositesBegun : List Composite → TestRun σ → List (Begun σ)
  | [], _ => []
  | c :: cs, r => andThenBegun (performComposite c) (compositeBegun c) (compositesBegun cs) r

end TestRun

namespace Call

open TestRun

mutual

/-- the replays that begin while a call runs -/
def begun : Call → TestRun σ → List (Begun σ)
  | operation target command children, r =>
    match r.registry.get? target.operation with
    | none => []
    | some op =>
      if op.kind = .action then
        operationBegun op target.frame
          (TestRun.command (command.getD target.operation) target.element target.driverArgs : Body σ String)
          noneBegun (r.entered op target)
      else
        operationBegun op target.frame (fun r => runAll children r) (fun r => begunAll children r)
          (r.entered op target)
  | composites batch, r => compositesBegun batch r
  | _, _ => []

def begunAll : List Call → TestRun σ → List (Begun σ)
  | [], _ => []
  | c :: cs, r =>
    c.begun r ++
      match c.run r with
      | (.ok _, r) => begunAll cs r
      | _ => []

end

theorem begunAll_cons (c : Call) (cs : List Call) :
    (begunAll (c :: cs) : TestRun σ → List (Begun σ)) = andThenBegun c.run c.begun (begunAll cs) := rfl

end Call

/-! ## Crashes of a run -/

/-- a test with a delay between attempts, on a clock that goes on -/
structure Ready (r : TestRun σ) : Prop where
  delay : 0 < (Replay.ofSettings r.settings).delay
  clock : r.clock.Advances

theorem Ready.onward {r t : TestRun σ} (h : Ready r) (hrt : Onward r t) : Ready t :=
  ⟨by rw [hrt.replay]; exact h.delay, hrt.clock.advances h.clock⟩

/-- a result of a run from `r` on in which these replays begin -/
structure Accounted (r : TestRun σ) (xs : List (Begun σ)) (outcome : Outcome α) : Prop where
  overflow : outcome = .crashed .deadlineOverflow ↔ ∃ x ∈ xs, x.Overflows
  budget : outcome ≠ .crashed .budgetOverflow
  within : ∀ x ∈ xs, x.Within r

/-- besides, attempts that cost time come to an end -/
structure Explained (r : TestRun σ) (xs : List (Begun σ)) (outcome : Outcome α) : Prop extends
    Accounted r xs outcome where
  ends : Ready r → outcome ≠ .crashed .endless

/-- the code only goes on, crashes for a deadline exactly if that of a replay in it does not fit the clock, and makes no
attempts without end -/
structure Accounts (body : Body σ α) (inside : TestRun σ → List (Begun σ)) : Prop where
  onward : ∀ r, Onward r (body r).2
  explained : ∀ r, Explained r (inside r) (body r).1

section Bodies

variable {β : Type} {body : Body σ α} {inside more : TestRun σ → List (Begun σ)} {r t : TestRun σ}
  {xs ys : List (Begun σ)} {outcome : Outcome α} {frame : Option String}

theorem ne_crashed_of_returned (h : outcome.returned = true) (c : Crash) : outcome ≠ .crashed c := by
  rintro rfl
  cases h

/-- without replays there is no crash -/
theorem explained_of_returned (h : outcome.returned = true) : Explained r [] outcome where
  overflow := ⟨fun hc => absurd hc (ne_crashed_of_returned h _), fun ⟨_, hx, _⟩ => absurd hx List.not_mem_nil⟩
  budget := ne_crashed_of_returned h _
  within := fun _ hx => absurd hx List.not_mem_nil
  ends := fun _ => ne_crashed_of_returned h _

theorem Accounted.before (h : Onward r t) (ht : Accounted t xs outcome) : Accounted r xs outcome :=
  ⟨ht.overflow, ht.budget, fun x hx => (ht.within x hx).before h⟩

theorem Explained.before (h : Onward r t) (ht : Explained t xs outcome) : Explained r xs outcome :=
  ⟨ht.toAccounted.before h, fun hr => ht.ends (hr.onward h)⟩

theorem map_crashed_iff (outcome : Outcome α) (f : α → β) (c : Crash) :
    outcome.map f = .crashed c ↔ outcome = .crashed c := by
  cases outcome with
  | _ => simp [Outcome.map]

/-- the value does not matter -/
theorem explained_map (h : Explained r xs outcome) (f : α → β) : Explained r xs (outcome.map f) where
  overflow := (map_crashed_iff outcome f _).trans h.overflow
  budget := mt (map_crashed_iff outcome f _).1 h.budget
  within := h.within
  ends := fun hr => mt (map_crashed_iff outcome f _).1 (h.ends hr)

/-- what comes behind code that did not crash decides -/
theorem Accounted.append {first : Outcome β} (h : Accounted r xs first) (hfirst : first.returned = true)
    (k : Accounted r ys outcome) : Accounted r (xs ++ ys) outcome := by
  refine ⟨?_, k.budget, ?_⟩
  · rw [k.overflow]
    constructor
    · rintro ⟨x, hx, hover⟩
      exact ⟨x, List.mem_append_right xs hx, hover⟩
    · rintro ⟨x, hx, hover⟩
      rcases List.mem_append.1 hx with hx | hx
      · exact absurd (h.overflow.2 ⟨x, hx, hover⟩) (ne_crashed_of_returned hfirst _)
      · exact ⟨x, hx, hover⟩
  · intro x hx
    rcases List.mem_append.1 hx with hx | hx
    · exact h.within x hx
    · exact k.within x hx

theorem accounts_andThen {first rest : Body σ Unit} (h : Accounts first inside) (k : Accounts rest more) :
    Accounts (andThen first rest) (TestRun.andThenBegun first inside more) := by
  refine ⟨beside_onward.andThen h.onward k.onward, fun r => ?_⟩
  have hfirst := h.explained r
  have hafter := h.onward r
  unfold andThen TestRun.andThenBegun
  rcases hp : first r with ⟨a | f | c, after⟩ <;> rw [hp] at hfirst hafter
  · have hrest := (k.explained after).before hafter
    exact ⟨hfirst.append rfl hrest.toAccounted, hrest.ends⟩
  · rw [List.append_nil]
    exact hfirst
  · rw [List.append_nil]
    exact hfirst

/-! ## Replays -/

theorem accounts_attempt (h : Accounts body inside) (frame : Option String) :
    Accounts (Replay.attempt frame body) (Replay.attemptBegun frame inside) := by
  refine ⟨beside_onward.attempt h.onward frame, fun r => ?_⟩
  have hswitched := beside_onward.restoreFrame frame r
  unfold Replay.attempt Replay.attemptBegun
  rcases hp : Replay.restoreFrame frame r with ⟨f | _, after⟩ <;> rw [hp] at hswitched
  · exact explained_of_returned rfl
  · exact (h.explained after).before hswitched

/-- a replay that begins later, attempt by attempt; one that is cut off did not crash for a deadline -/
theorem accounted_attemptsFrom (h : Accounts body inside) (frame : Option String) (e : Replay)
    (deadline fuel done : Nat) (r : TestRun σ) :
    Accounted r (e.begunFrom deadline frame body inside fuel r)
      (e.attemptsFrom deadline frame body fuel done r).1.result := by
  induction fuel generalizing done r with
  | zero =>
    have hnone : (e.attemptsFrom deadline frame body 0 done r).1.result = .crashed .endless := rfl
    rw [hnone, Replay.begunFrom]
    exact ⟨by simp, by simp, fun x hx => absurd hx List.not_mem_nil⟩
  | succ fuel ih =>
    have hattempt := ((accounts_attempt h frame).explained r).toAccounted
    rw [Replay.begunFrom]
    cases hnext : Replay.next? e deadline frame body r with
    | none =>
      rw [(Replay.attemptsFrom_last hnext fuel done).1, List.append_nil]
      exact hattempt
    | some next =>
      have hback : Onward r next := by
        obtain ⟨f, after, hafter, -, -, rfl⟩ := Replay.next?_eq_some hnext
        have honward := beside_onward.attempt h.onward frame r
        rw [hafter] at honward
        exact beside_onward.goneBack e deadline honward
      have hreturned : (Replay.attempt frame body r).1.returned = true := by
        obtain ⟨f, after, hafter, -⟩ := Replay.next?_eq_some hnext
        rw [hafter]
        rfl
      rw [Replay.attemptsFrom_of_next hnext]
      exact hattempt.append hreturned ((ih (done + 1) next).before hback)

/-- a replay on a clock that goes on comes to its end -/
theorem ends_run (h : Accounts body inside) (frame : Option String) {r : TestRun σ} (hr : Ready r) :
    ((Replay.ofSettings r.settings).run frame body r).1.result ≠ .crashed .endless := by
  by_cases hlimit : Replay.clockLimit ≤ r.clock.now + (Replay.ofSettings r.settings).timeout
  · rw [Replay.run_of_overflow hlimit]
    exact fun hc => by cases hc
  · let t : Trial σ α := ⟨Replay.ofSettings r.settings, frame, body, r⟩
    have htimely : Timely t.body := fun r => (h.onward r).clock
    -- every attempt but the last costs a nanosecond
    have hmany : t.replay.timeout ≤ t.replay.timeout * t.replay.delay := Nat.le_mul_of_pos_right _ hr.delay
    obtain ⟨n, hn, hends, hfirst⟩ := Trial.exists_first_end (Trial.exists_ends htimely hr.clock hmany)
    have hfits : t.deadline < Replay.clockLimit := Nat.not_le.1 hlimit
    have hfew : n < Replay.attemptLimit := by
      unfold Trial.deadline at hfits
      unfold Replay.attemptLimit
      omega
    have hrun : (Replay.ofSettings r.settings).run frame body r = _ := Trial.run_of_ends hfits hfew hends hfirst
    have hbefore : Onward t.start (t.before n) := beside_onward.before h.onward n
    rw [hrun]
    exact ((accounts_attempt h frame).explained _).ends (hr.onward hbefore)

theorem accounted_replay (h : Accounts body inside) (frame : Option String) (r : TestRun σ) :
    Accounted r ((Replay.ofSettings r.settings).begun frame body inside r)
      ((Replay.ofSettings r.settings).run frame body r).1.result := by
  have hself : Begun.Within r ⟨⟨Replay.ofSettings r.settings, frame, body, r⟩⟩ := ⟨beside_onward.refl r, rfl⟩
  unfold Replay.begun
  by_cases hlimit : Replay.clockLimit ≤ r.clock.now + (Replay.ofSettings r.settings).timeout
  · rw [if_pos hlimit, Replay.run_of_overflow hlimit]
    exact ⟨⟨fun _ => ⟨_, List.mem_singleton_self _, hlimit⟩, fun _ => rfl⟩, fun hc => (by cases hc),
      List.forall_mem_singleton.2 hself⟩
  · rw [if_neg hlimit, Replay.run_of_fits hlimit]
    have hread : Onward r { r with clock := r.clock.afterReading } := passage_onward.reading r
    have hattempts := (accounted_attemptsFrom h frame (Replay.ofSettings r.settings)
      (r.clock.now + (Replay.ofSettings r.settings).timeout) Replay.attemptLimit 0 _).before hread
    -- the replay itself fits, so it adds nothing that crashes
    refine ⟨?_, hattempts.budget, List.forall_mem_cons.2 ⟨hself, hattempts.within⟩⟩
    rw [hattempts.overflow]
    constructor
    · rintro ⟨x, hx, hover⟩
      exact ⟨x, List.mem_cons_of_mem _ hx, hover⟩
    · rintro ⟨x, hx, hover⟩
      rcases List.mem_cons.1 hx with rfl | hx
      · exact absurd hover hlimit
      · exact ⟨x, hx, hover⟩

theorem explained_execute (h : Accounts body inside) (op : Operation) (frame : Option String) (r : TestRun σ) :
    Explained r (TestRun.operationBegun op frame body inside r) (TestRun.execute op frame body r).1.1 := by
  unfold TestRun.operationBegun
  by_cases hreplay : op.replay = true
  · rw [TestRun.execute_replay hreplay, TestRun.answerOf_result, if_pos hreplay]
    exact ⟨accounted_replay h frame r, ends_run h frame⟩
  · rw [TestRun.execute_once hreplay, if_neg hreplay]
    exact h.explained r

/-! ## Calls -/

theorem explained_intercept {i : Invocation} {op : Operation} (hop : r.registry.get? i.operation = some op)
    (h : Accounts body inside) :
    Explained r (TestRun.operationBegun op i.frame body inside (r.entered op i)) (TestRun.intercept i body r).1 := by
  have hentered : Onward r (r.entered op i) := passage_onward.alike (TestRun.alike_entered op i r)
  rw [(TestRun.intercept_entered hop body).1]
  exact (explained_execute h op i.frame (r.entered op i)).before hentered

/-- code that replays nothing and comes back -/
theorem accounts_of_returned (honward : ∀ r, Onward r (body r).2) (hreturned : ∀ r, (body r).1.returned = true) :
    Accounts body TestRun.noneBegun :=
  ⟨honward, fun r => explained_of_returned (hreturned r)⟩

theorem accounts_command (name : String) (element : Option Element) (args : List String) :
    Accounts (TestRun.command name element args : Body σ String) TestRun.noneBegun :=
  accounts_of_returned (beside_onward.command name element args) (TestRun.returned_command name element args)

theorem accounts_unit (ps : List Primitive) : Accounts (TestRun.unit ps : Body σ Unit) TestRun.noneBegun :=
  accounts_of_returned (beside_onward.unit ps) (TestRun.returned_unit ps)

theorem accounts_performComposite (c : Composite) :
    Accounts (TestRun.performComposite c : Body σ Unit) (TestRun.compositeBegun c) := by
  refine ⟨beside_onward.performComposite c, fun r => ?_⟩
  have hopened : Onward r (r.record fun rec => rec.openStep (TestRun.compositeStep c r)) :=
    passage_onward.alike (alike_record r _)
  exact (explained_execute (accounts_unit c.primitives) _ none _).before hopened

theorem accounts_performComposites (cs : List Composite) :
    Accounts (TestRun.performComposites cs : Body σ Unit) (TestRun.compositesBegun cs) := by
  induction cs with
  | nil => exact accounts_of_returned (beside_onward.performComposites []) fun _ => rfl
  | cons c cs ih =>
    rw [TestRun.performComposites_cons]
    exact accounts_andThen (accounts_performComposite c) ih

end Bodies

namespace Call

mutual

theorem accounts_run (c : Call) : Accounts (c.run : Body σ Unit) c.begun := by
  cases c with
  | operation target command children =>
    refine ⟨beside_onward.run (.operation target command children), fun r => ?_⟩
    rw [begun, run]
    cases hop : r.registry.get? target.operation with
    | none =>
      rw [isAction, hop]
      simp only [Bool.false_eq_true, if_false]
      rw [TestRun.intercept_undeclared hop]
      exact explained_of_returned rfl
    | some op =>
      rw [isAction, hop]
      by_cases hk : op.kind = .action
      · simp only [hk, beq_self_eq_true, if_true]
        exact explained_map (explained_intercept hop (accounts_command _ target.element target.driverArgs)) _
      · have hstep : (op.kind == .action) = false := by simpa using hk
        simp only [hstep, hk, Bool.false_eq_true, if_false]
        exact explained_intercept hop (accounts_runAll children)
  | composites batch => exact accounts_performComposites batch
  | step name => exact accounts_of_returned (beside_onward.run (.step name)) fun _ => rfl
  | message text level => exact accounts_of_returned (beside_onward.run (.message text level)) fun _ => rfl
  | secret value => exact accounts_of_returned (beside_onward.run (.secret value)) fun _ => rfl
  | fail text => exact accounts_of_returned (beside_onward.run (.fail text)) fun _ => rfl

theorem accounts_runAll (cs : List Call) : Accounts (runAll cs : Body σ Unit) (begunAll cs) := by
  cases cs with
  | nil => exact accounts_of_returned (beside_onward.runAll []) fun _ => rfl
  | cons c cs =>
    rw [runAll_cons, begunAll_cons]
    exact accounts_andThen (accounts_run c) (accounts_runAll cs)

end

end Call

end TestTrail
