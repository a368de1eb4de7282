/-
Replays inside replays.

A floor is the call of a replayed operation together with the attempt that is under way in it, and a tower is a list of
floors, from the innermost call outwards, each made by the attempt under way in the next one (`Floor.Makes`). All of
them belong to one test, so they have one timeout and one clock, which never goes back.

A transient failure stays transient on its way out, so every replay around would try again. What keeps it from that is
the order of the deadlines: an inner call starts later, so its deadline is no earlier (`deadline_le_of_makes`). When the
inner replay has given up, the time is past its deadline, and so past the deadlines around it; and it stays so until the
attempt is over (`late_of_makes`). From there the attempt under way is the last one on every floor (`last_of_late`).
-/
import TestTrail.Proofs.Calls.Commands
import TestTrail.Proofs.Calls.Deadlines

namespace TestTrail

open Recorder

variable {σ α : Type}

/-! ## Clocks that never go back -/

namespace Clock

/-- later readings show no earlier times -/
def NeverGoesBack (c : Clock) : Prop :=
  ∀ ⦃paused later readings more : Nat⦄, paused ≤ later → readings ≤ more →
    c.reading paused readings ≤ c.reading later more

variable {c d : Clock}

theorem Later.neverGoesBack (h : Later c d) (hc : c.NeverGoesBack) : d.NeverGoesBack := by
  intro paused later readings more hp hr
  rw [h.reading]
  exact hc hp hr

theorem Later.now_mono (h : Later c d) (hc : c.NeverGoesBack) : c.now ≤ d.now := by
  unfold now
  rw [h.reading]
  exact hc h.paused h.readings

theorem steady_neverGoesBack (start : Nat) : (steady start).NeverGoesBack :=
  fun _ _ _ _ hp _ => Nat.add_le_add_left hp start

end Clock

/-! ## Replays that give up -/

namespace Replay

variable {e : Replay} {deadline : Nat} {frame : Option String} {body : Body σ α}

/-- a replay that gives up has seen the deadline pass, and hands on a transient failure -/
theorem attemptsFrom_exhausted {fuel done : Nat} {r : TestRun σ}
    (h : (attemptsFrom e deadline frame body fuel done r).1.exhausted = true) :
    (∃ f, (attemptsFrom e deadline frame body fuel done r).1.result = .failed f ∧ f.transient = true) ∧
      ∃ c : Clock, deadline ≤ c.now ∧ (attemptsFrom e deadline frame body fuel done r).2.clock = c.afterReading := by
  induction fuel generalizing done r with
  | zero => cases h
  | succ fuel ih =>
    cases hnext : next? e deadline frame body r with
    | some next =>
      rw [attemptsFrom_of_next hnext] at h ⊢
      exact ih h
    | none =>
      rw [attemptsFrom] at h ⊢
      rcases hattempt : attempt frame body r with ⟨a | f | c, after⟩
      · rw [hattempt] at h
        cases h
      · rw [hattempt] at h
        simp only at h ⊢
        by_cases ht : f.transient = true
        · by_cases hover : deadline ≤ after.clock.now
          · rw [if_pos ht, if_pos hover]
            exact ⟨⟨f, rfl, ht⟩, after.clock, hover, rfl⟩
          · -- the attempt would have been discarded
            have hsome : next? e deadline frame body r = some (goneBack e deadline r after) := by
              unfold next?
              rw [hattempt]
              exact if_pos ⟨ht, Nat.not_le.1 hover⟩
            rw [hnext] at hsome
            cases hsome
        · rw [if_neg ht] at h
          cases h
      · rw [hattempt] at h
        cases h

end Replay

namespace Trial

variable {t : Trial σ α} {n : Nat}

theorem run_exhausted (h : t.run.1.exhausted = true) :
    (∃ f, t.run.1.result = .failed f ∧ f.transient = true) ∧
      ∃ c : Clock, t.deadline ≤ c.now ∧ t.run.2.clock = c.afterReading := by
  unfold run deadline at *
  by_cases hlimit : Replay.clockLimit ≤ t.start.clock.now + t.replay.timeout
  · rw [Replay.run_of_overflow hlimit] at h
    cases h
  · rw [Replay.run_of_fits hlimit] at h ⊢
    exact Replay.attemptsFrom_exhausted h

/-- a replay that gives up ends behind its deadline, on a clock that never goes back -/
theorem late_of_exhausted (h : t.run.1.exhausted = true) (hback : t.run.2.clock.NeverGoesBack) :
    t.deadline ≤ t.run.2.clock.now := by
  obtain ⟨-, clock, hover, hclock⟩ := run_exhausted h
  rw [hclock] at hback ⊢
  exact hover.trans ((Clock.later_afterReading clock).now_mono hback)

/-- the attempts that the replay itself goes back from -/
def discarded (t : Trial σ α) : List Discard := t.replay.discards t.frame t.body TestRun.nothing t.start

/-- an attempt with the records before and behind it -/
def traceOf (t : Trial σ α) (n : Nat) : Discard := ⟨(t.before n).recorder, (t.behind n).recorder⟩

theorem discardsFrom_ends (h : t.Ends n) (fuel : Nat) :
    Replay.discardsFrom t.replay t.deadline t.frame t.body TestRun.nothing (fuel + 1) (t.before n) = [] := by
  rw [Replay.discardsFrom]
  cases hnext : Replay.next? t.replay t.deadline t.frame t.body (t.before n) with
  | none => rfl
  | some next =>
    obtain ⟨f, after, hattempt, htransient, hlt, -⟩ := Replay.next?_eq_some hnext
    rw [attempt_before, Prod.mk.injEq] at hattempt
    rcases h with hsettled | hover
    · rw [hattempt.1, Outcome.isTransient_failed, htransient] at hsettled
      cases hsettled
    · unfold shown at hover
      rw [hattempt.2] at hover
      exact absurd hlt (Nat.not_lt.2 hover)

theorem discardsFrom_before (n k fuel : Nat) (hends : t.Ends (k + n)) (hgoes : ∀ i < k + n, ¬ t.Ends i) :
    Replay.discardsFrom t.replay t.deadline t.frame t.body TestRun.nothing (fuel + 1 + n) (t.before k) =
      (List.range' k n).map t.traceOf := by
  induction n generalizing k with
  | zero => exact discardsFrom_ends hends fuel
  | succ n ih =>
    rw [← Nat.add_assoc, Replay.discardsFrom, next?_before (hgoes k (Nat.lt_add_of_pos_right n.succ_pos))]
    have hrest := ih (k + 1) (by rwa [Nat.add_right_comm, Nat.add_assoc])
      (fun i hi => hgoes i (by omega))
    rw [List.range'_succ, List.map_cons, ← hrest]
    rfl

/-- a replay goes back from all attempts but the last one -/
theorem discarded_of_ends (hfits : t.deadline < Replay.clockLimit) (hlimit : n < Replay.attemptLimit) (hends : t.Ends n)
    (hfirst : ∀ i < n, ¬ t.Ends i) : t.discarded = (List.range n).map t.traceOf := by
  obtain ⟨fuel, hfuel⟩ : ∃ fuel, Replay.attemptLimit = fuel + 1 + n := ⟨Replay.attemptLimit - n - 1, by omega⟩
  have hlate : ¬ Replay.clockLimit ≤ t.start.clock.now + t.replay.timeout := Nat.not_le.2 hfits
  unfold discarded Replay.discards
  rw [if_neg hlate, hfuel, List.range_eq_range']
  exact discardsFrom_before n 0 fuel (by rwa [Nat.zero_add]) (by rwa [Nat.zero_add])

end Trial

/-! ## Towers -/

namespace TestRun

/-- the test when the replay of a call begins -/
def entered (op : Operation) (i : Invocation) (r : TestRun σ) : TestRun σ :=
  if op.kind = .action ∨ r.settings.manualTestSteps = true then r else r.record fun rec => rec.openStep (r.stepOf op i)

theorem alike_entered (op : Operation) (i : Invocation) (r : TestRun σ) : Alike r (r.entered op i) := by
  unfold entered
  split_ifs
  · exact Alike.refl r
  · exact alike_record r _

theorem intercept_entered {i : Invocation} {op : Operation} {r : TestRun σ}
    (hop : r.registry.get? i.operation = some op) (body : Body σ α) :
    (intercept i body r).1 = (execute op i.frame body (r.entered op i)).1.1 ∧
      Alike (execute op i.frame body (r.entered op i)).2 (intercept i body r).2 := by
  unfold entered
  by_cases hk : op.kind = .action
  · rw [if_pos (Or.inl hk), intercept_action hop hk, interceptAction_eq]
    exact ⟨rfl, alike_acting _ op i _⟩
  · rw [intercept_step hop hk]
    by_cases hm : r.settings.manualTestSteps = true
    · rw [if_pos (Or.inr hm), interceptStep_manual op i body hm]
      exact ⟨rfl, Alike.refl _⟩
    · rw [if_neg (not_or.2 ⟨hk, hm⟩), interceptStep_eq op i body hm]
      exact ⟨rfl, alike_closing _⟩

end TestRun

/-- the call of an operation, and the number of the attempt that is under way in it, counted from zero -/
structure Floor (σ : Type) where
  {α : Type}
  target : Invocation
  operation : Operation
  body : Body σ α
  start : TestRun σ
  attempt : Nat

namespace Floor

/-- the call, and the test behind it -/
def call (c : Floor σ) : Outcome c.α × TestRun σ := c.start.intercept c.target c.body

/-- the replay of the call -/
def trial (c : Floor σ) : Trial σ c.α :=
  ⟨Replay.ofSettings c.start.settings, c.target.frame, c.body, c.start.entered c.operation c.target⟩

/-- the test when the code runs in the attempt under way -/
def begun (c : Floor σ) : TestRun σ := (Replay.restoreFrame c.target.frame (c.trial.before c.attempt)).2

/-- the attempt under way, when its code is run -/
def trying (c : Floor σ) : Outcome c.α × TestRun σ := c.body c.begun

/-- The operation is declared and replayed. The code of the call leaves the settings of the test and its clock alone,
but for reading it and letting time pass; and the clock never goes back. -/
structure Replayed (c : Floor σ) : Prop where
  declared : c.start.registry.get? c.target.operation = some c.operation
  replayed : c.operation.replay = true
  onward : ∀ r, Onward r (c.body r).2
  clock : c.start.clock.NeverGoesBack

/-- the replay has come to the attempt under way, and its code is run -/
structure UnderWay (c : Floor σ) : Prop where
  fits : c.trial.deadline < Replay.clockLimit
  limit : c.attempt < Replay.attemptLimit
  reached : ∀ i < c.attempt, ¬ c.trial.Ends i
  switched : (Replay.restoreFrame c.target.frame (c.trial.before c.attempt)).1 = .ok ()

/-- the attempt under way makes the inner call: its code goes on to where this begins, and on from where it ends -/
structure Makes (outer inner : Floor σ) : Prop where
  before : Onward outer.begun inner.start
  behind : Onward inner.call.2 outer.trying.2

/-- the attempt under way passes a failure of the inner call on as it is -/
def PassesOn (outer inner : Floor σ) : Prop := ∀ f, inner.call.1 = .failed f → outer.trying.1 = .failed f

/-- behind the call, the time is past its deadline -/
def Late (c : Floor σ) : Prop := c.trial.deadline ≤ c.call.2.clock.now

/-- The attempt under way is the last one: the replay goes back from those before it only, and leaves the record as this
attempt has left it. -/
structure Last (c : Floor σ) : Prop where
  attempts : c.trial.run.1.attempts = Replay.counted (c.attempt + 1)
  discarded : c.trial.discarded = (List.range c.attempt).map c.trial.traceOf
  record : c.trial.run.2.recorder = c.trying.2.recorder

variable {c outer inner : Floor σ}

theorem Replayed.call_result (h : c.Replayed) : c.call.1 = c.trial.run.1.result := by
  unfold call
  rw [(TestRun.intercept_entered h.declared c.body).1, TestRun.execute_replay h.replayed, TestRun.answerOf_result,
    ← (TestRun.alike_entered c.operation c.target c.start).replay]
  rfl

theorem Replayed.call_clock (h : c.Replayed) : c.call.2.clock = c.trial.run.2.clock := by
  unfold call
  rw [← (TestRun.intercept_entered h.declared c.body).2.clock, TestRun.execute_replay h.replayed, TestRun.answerOf_run,
    ← (TestRun.alike_entered c.operation c.target c.start).replay]
  rfl

theorem onward_entered (c : Floor σ) : Onward c.start c.trial.start :=
  passage_onward.alike (TestRun.alike_entered c.operation c.target c.start)

theorem Replayed.onward_before (h : c.Replayed) (n : Nat) : Onward c.start (c.trial.before n) :=
  passage_onward.trans c.onward_entered (beside_onward.before h.onward n)

theorem Replayed.onward_begun (h : c.Replayed) : Onward c.start c.begun :=
  passage_onward.trans (h.onward_before c.attempt) (beside_onward.restoreFrame c.target.frame _)

theorem attempt_underWay (h : c.UnderWay) :
    (c.trial.outcome c.attempt, c.trial.behind c.attempt) = c.trying := by
  rw [← Trial.attempt_before]
  have hswitched : Replay.restoreFrame c.target.frame (c.trial.before c.attempt) = (.ok (), c.begun) :=
    Prod.ext h.switched rfl
  exact attempt_restored hswitched

theorem outcome_underWay (h : c.UnderWay) : c.trial.outcome c.attempt = c.trying.1 :=
  congrArg Prod.fst (attempt_underWay h)

theorem behind_underWay (h : c.UnderWay) : c.trial.behind c.attempt = c.trying.2 :=
  congrArg Prod.snd (attempt_underWay h)

/-- an exhausted replay ends behind its deadline -/
theorem late_of_exhausted (h : c.Replayed) (hexhausted : c.trial.run.1.exhausted = true) : c.Late := by
  have honward : Onward c.start c.trial.run.2 :=
    passage_onward.trans c.onward_entered (beside_onward.replay h.onward c.trial.replay c.target.frame c.trial.start)
  unfold Late
  rw [h.call_clock]
  exact Trial.late_of_exhausted hexhausted (honward.clock.neverGoesBack h.clock)

theorem deadline_eq (c : Floor σ) : c.trial.deadline = c.start.clock.now + c.start.settings.replayTimeoutNanos := by
  unfold Trial.deadline trial
  rw [← (TestRun.alike_entered c.operation c.target c.start).clock]
  rfl

/-- the deadline of a replay that begins in the attempt under way is no earlier -/
theorem deadline_le_of_onward (h : outer.Replayed) {r : TestRun σ} (honward : Onward outer.begun r) :
    outer.trial.deadline ≤ r.clock.now + r.settings.replayTimeoutNanos := by
  have hstart : Onward outer.start r := passage_onward.trans h.onward_begun honward
  have hnow := hstart.clock.now_mono h.clock
  have htimeout := hstart.timeout
  rw [deadline_eq, htimeout]
  omega

/-- the deadline of an inner call is no earlier -/
theorem deadline_le_of_makes (h : outer.Replayed) (hmakes : outer.Makes inner) :
    outer.trial.deadline ≤ inner.trial.deadline := by
  rw [deadline_eq inner]
  exact deadline_le_of_onward h hmakes.before

/-- the attempt that makes a call which is late is over behind its own deadline -/
theorem deadline_le_trying (h : outer.Replayed) (hmakes : outer.Makes inner) (hlate : inner.Late)
    (hback : inner.call.2.clock.NeverGoesBack) : outer.trial.deadline ≤ outer.trying.2.clock.now :=
  (deadline_le_of_makes h hmakes).trans (hlate.trans (hmakes.behind.clock.now_mono hback))

theorem Replayed.neverGoesBack_call (h : c.Replayed) : c.call.2.clock.NeverGoesBack :=
  (beside_onward.intercept h.onward c.target c.start).clock.neverGoesBack h.clock

theorem Replayed.neverGoesBack_made (h : outer.Replayed) (hmakes : outer.Makes inner) :
    inner.start.clock.NeverGoesBack :=
  (h.onward_begun.clock.trans hmakes.before.clock).neverGoesBack h.clock

theorem ends_of_late (hunderway : outer.UnderWay) (hover : outer.trial.deadline ≤ outer.trying.2.clock.now) :
    outer.trial.Ends outer.attempt := by
  refine Or.inr ?_
  unfold Trial.shown
  rwa [behind_underWay hunderway]

/-- **The attempt under way is the last one** when its end is behind the deadline. -/
theorem last_of_late (hunderway : outer.UnderWay) (hover : outer.trial.deadline ≤ outer.trying.2.clock.now) :
    outer.Last ∧ outer.trial.run =
      (⟨outer.trying.1, Replay.counted (outer.attempt + 1), outer.trying.1.isTransient⟩,
        outer.trial.final outer.attempt) := by
  have hends := ends_of_late hunderway hover
  have hrun := Trial.run_of_ends hunderway.fits hunderway.limit hends hunderway.reached
  rw [outcome_underWay hunderway] at hrun
  refine ⟨⟨?_, ?_, ?_⟩, hrun⟩
  · rw [hrun]
  · exact Trial.discarded_of_ends hunderway.fits hunderway.limit hends hunderway.reached
  · rw [hrun, ← behind_underWay hunderway]
    unfold Trial.final
    split_ifs <;> rfl

theorem late_of_makes (h : outer.Replayed) (hunderway : outer.UnderWay)
    (hover : outer.trial.deadline ≤ outer.trying.2.clock.now) : outer.Late := by
  have hback : outer.trying.2.clock.NeverGoesBack :=
    (h.onward_begun.clock.trans (h.onward outer.begun).clock).neverGoesBack h.clock
  have hlater : outer.trying.2.clock.Later (outer.trial.final outer.attempt).clock := by
    unfold Trial.final
    rw [behind_underWay hunderway]
    split_ifs
    · exact Clock.later_afterReading _
    · exact Clock.Later.refl _
  unfold Late
  rw [h.call_clock, (last_of_late hunderway hover).2]
  exact hover.trans (hlater.now_mono hback)

/-- a failure passed on from an inner call is handed on by this one, and the replay is exhausted as well -/
theorem exhausted_of_passesOn (h : outer.Replayed) (hunderway : outer.UnderWay)
    (hover : outer.trial.deadline ≤ outer.trying.2.clock.now) {f : Failure} (htransient : f.transient = true)
    (hfailed : outer.trying.1 = .failed f) :
    outer.trial.run.1 = ⟨.failed f, Replay.counted (outer.attempt + 1), true⟩ ∧ outer.call.1 = .failed f := by
  have hrun : outer.trial.run.1 = ⟨.failed f, Replay.counted (outer.attempt + 1), true⟩ := by
    rw [(last_of_late hunderway hover).2, hfailed, Outcome.isTransient_failed, htransient]
  exact ⟨hrun, by rw [h.call_result, hrun]⟩

/-- Replayed calls in one another, from the innermost outwards: each is made by the attempt under way in the next
one. -/
structure Tower (inner : Floor σ) (enclosing : List (Floor σ)) : Prop where
  replayed : ∀ c ∈ inner :: enclosing, c.Replayed
  underWay : ∀ c ∈ enclosing, c.UnderWay
  made : (inner :: enclosing).IsChain fun c d => d.Makes c

variable {enclosing : List (Floor σ)}

theorem Tower.tail (h : Tower inner (outer :: enclosing)) : Tower outer enclosing where
  replayed c hc := h.replayed c (List.mem_cons_of_mem inner hc)
  underWay c hc := h.underWay c (List.mem_cons_of_mem outer hc)
  made := h.made.tail

/-- behind a late call, the attempts around it are over behind their own deadlines, however many calls there are -/
theorem Tower.deadlines_le (h : Tower inner enclosing) (hlate : inner.Late) :
    ∀ c ∈ enclosing, c.trial.deadline ≤ c.trying.2.clock.now := by
  induction enclosing generalizing inner with
  | nil => exact fun c hc => absurd hc List.not_mem_nil
  | cons outer rest ih =>
    have hinner := h.replayed inner List.mem_cons_self
    have houter := h.tail.replayed outer List.mem_cons_self
    have hover := deadline_le_trying houter h.made.rel hlate hinner.neverGoesBack_call
    have hrest := ih h.tail (late_of_makes houter (h.underWay outer List.mem_cons_self) hover)
    intro c hc
    rcases List.mem_cons.1 hc with rfl | hc
    · exact hover
    · exact hrest c hc

/-- a transient failure that every floor passes on comes out of every floor -/
theorem Tower.exhausted (h : Tower inner enclosing) (hlate : inner.Late)
    (hpasses : (inner :: enclosing).IsChain fun c d => d.PassesOn c) {f : Failure} (htransient : f.transient = true)
    (hfailed : inner.call.1 = .failed f) :
    ∀ c ∈ enclosing, c.trial.run.1 = ⟨.failed f, Replay.counted (c.attempt + 1), true⟩ ∧ c.call.1 = .failed f := by
  have hover := h.deadlines_le hlate
  induction enclosing generalizing inner with
  | nil => exact fun c hc => absurd hc List.not_mem_nil
  | cons outer rest ih =>
    have houter := h.tail.replayed outer List.mem_cons_self
    have hunderway := h.underWay outer List.mem_cons_self
    have hhead := hover outer List.mem_cons_self
    have hfirst := exhausted_of_passesOn houter hunderway hhead htransient (hpasses.rel f hfailed)
    have hrest := ih h.tail (late_of_makes houter hunderway hhead) hpasses.tail hfirst.2
      (fun c hc => hover c (List.mem_cons_of_mem outer hc))
    intro c hc
    rcases List.mem_cons.1 hc with rfl | hc
    · exact hfirst
    · exact hrest c hc

/-- **A replay budget is spent once.** Let replayed calls of one test stand in one another, to any depth, each made in
any attempt of the call around it, and let the clock never go back. When the innermost call gives up because its budget
is used up, then

* the attempts under way in all calls around it are the last ones. Their replays go back from the attempts before these
  only, and what the inner calls have recorded stays;
* when the failure is passed on from call to call, each call around ends with that same failure, with its own budget
  used up as well. -/
theorem budget_spent_once (inner : Floor σ) (enclosing : List (Floor σ)) (htower : Tower inner enclosing)
    (hexhausted : inner.trial.run.1.exhausted = true) :
    (∀ c ∈ enclosing, c.Last) ∧
      ((inner :: enclosing).IsChain (fun c d => d.PassesOn c) →
        ∃ f, inner.call.1 = .failed f ∧ ∀ c ∈ enclosing,
          c.trial.run.1 = ⟨.failed f, Replay.counted (c.attempt + 1), true⟩ ∧ c.call.1 = .failed f) := by
  have hinner := htower.replayed inner List.mem_cons_self
  have hlate := late_of_exhausted hinner hexhausted
  refine ⟨fun c hc => (last_of_late (htower.underWay c hc) (htower.deadlines_le hlate c hc)).1, fun hpasses => ?_⟩
  obtain ⟨⟨f, hresult, htransient⟩, -⟩ := Trial.run_exhausted hexhausted
  have hfailed : inner.call.1 = .failed f := by rw [hinner.call_result, hresult]
  exact ⟨f, hfailed, htower.exhausted hlate hpasses htransient hfailed⟩

/-! ## Towers of the calls of a plan -/

/-- an operation that makes calls of a plan -/
def ofCalls (op : Operation) (calls : List Call) (start : TestRun σ) (attempt : Nat) : Floor σ :=
  ⟨{ operation := op.id }, op, Call.runAll calls, start, attempt⟩

theorem runAll_append (before behind : List Call) :
    (Call.runAll (before ++ behind) : Body σ Unit) = andThen (Call.runAll before) (Call.runAll behind) := by
  induction before with
  | nil => rfl
  | cons c before ih =>
    rw [List.cons_append, Call.runAll_cons, Call.runAll_cons, ih]
    funext r
    unfold andThen
    rcases c.run r with ⟨a | f | crash, after⟩ <;> rfl

theorem runAll_of_ok {before : List Call} {r t : TestRun σ} (h : Call.runAll before r = (.ok (), t))
    (behind : List Call) : Call.runAll (before ++ behind) r = Call.runAll behind t := by
  rw [runAll_append]
  unfold andThen
  rw [h]

/-- when the calls before it have gone well, a call is made, and its failure goes on to the call around -/
theorem makes_of_calls {op : Operation} {start : TestRun σ} {attempt : Nat} (before : List Call) (made : Call)
    (behind : List Call)
    (hbefore : Call.runAll before (ofCalls op (before ++ made :: behind) start attempt).begun = (.ok (), inner.start))
    (hmade : made.run inner.start = (inner.call.1.map fun _ => (), inner.call.2)) :
    (ofCalls op (before ++ made :: behind) start attempt).Makes inner ∧
      (ofCalls op (before ++ made :: behind) start attempt).PassesOn inner := by
  have htrying : (ofCalls op (before ++ made :: behind) start attempt).trying =
      andThen made.run (Call.runAll behind) inner.start := by
    rw [← Call.runAll_cons]
    exact runAll_of_ok hbefore (made :: behind)
  have hstart := beside_onward.runAll before (ofCalls op (before ++ made :: behind) start attempt).begun
  rw [hbefore] at hstart
  refine ⟨⟨hstart, ?_⟩, fun f hf => ?_⟩
  · rw [htrying]
    unfold andThen
    rw [hmade]
    cases inner.call.1 with
    | ok a => exact beside_onward.runAll behind inner.call.2
    | failed f => exact beside_onward.refl _
    | crashed c => exact beside_onward.refl _
  · rw [htrying]
    unfold andThen
    rw [hmade, hf]
    rfl

theorem run_step {target : Invocation} {command : Option String} {calls : List Call} {r : TestRun σ}
    (h : Call.isAction r.registry target.operation = false) :
    (Call.operation target command calls).run r =
      ((r.intercept target (Call.runAll calls)).1.map fun _ => (), (r.intercept target (Call.runAll calls)).2) := by
  rw [Call.run, if_neg (Bool.eq_false_iff.1 h), Outcome.map_unit]

theorem run_action {target : Invocation} {calls : List Call} {r : TestRun σ}
    (h : Call.isAction r.registry target.operation = true) :
    (Call.operation target none calls).run r =
      ((r.perform target target.operation).1.map fun _ => (), (r.perform target target.operation).2) := by
  rw [Call.run, if_pos h]
  rfl

/-! ## A checkout -/

/-- a click inside a payment, and that inside a checkout; all three are replayed -/
def click : Operation := .ofKind "click" .action

def pay : Operation := { Operation.ofKind "pay" .step with replay := true }

def checkout : Operation := { Operation.ofKind "checkout" .step with replay := true }

def clicking : Call := .operation { operation := "click" } none []

def paying : Call := .operation { operation := "pay" } none [clicking]

/-- opening the shop, which is not replayed -/
def opening : Call := .operation { operation := "open" } none []

/-- a page that cannot be opened at first, and on which the click never works -/
def shop : TestRun Unit :=
  { TestRun.start "buy" { replayTimeout := 1, replayDelayMs := 400 }
      (.ofList [(Operation.ofKind "open" .action).withoutReplay, click, pay, checkout]) (.steady 0) {} noon () with
    driver := some ((Driver.alwaysFail {} "click" ⟨.notFound, "click"⟩).failNext "open" 1 ⟨.stale, "open"⟩) }

/-- the checkout, in its second attempt -/
def atCheckout : Floor Unit := ofCalls checkout [opening, paying] shop 1

/-- the payment inside it -/
def atPay : Floor Unit := ofCalls pay [clicking] (Call.runAll [opening] atCheckout.begun).2 0

/-- the click inside that -/
def atClick : Floor Unit := ⟨{ operation := "click" }, click, TestRun.command "click" none [], atPay.begun, 0⟩

theorem tower_of_checkout :
    atClick.Tower [atPay, atCheckout] ∧ [atClick, atPay, atCheckout].IsChain (fun c d => d.PassesOn c) := by
  have hopened : Call.runAll [opening] atCheckout.begun = (.ok (), atPay.start) :=
    Prod.ext (by decide +kernel) rfl
  have hpaid : atCheckout.Makes atPay ∧ atCheckout.PassesOn atPay :=
    makes_of_calls [opening] paying [] hopened (run_step (by decide +kernel))
  have hclicked : atPay.Makes atClick ∧ atPay.PassesOn atClick :=
    makes_of_calls [] clicking [] rfl (run_action (by decide +kernel))
  have hcheckout : atCheckout.Replayed :=
    ⟨by decide +kernel, rfl, beside_onward.runAll _, Clock.steady_neverGoesBack 0⟩
  have hpay : atPay.Replayed :=
    ⟨by decide +kernel, rfl, beside_onward.runAll _, hcheckout.neverGoesBack_made hpaid.1⟩
  have hclick : atClick.Replayed :=
    ⟨by decide +kernel, rfl, beside_onward.command _ _ _, hpay.neverGoesBack_made hclicked.1⟩
  have hfailed : ¬ atCheckout.trial.Ends 0 := by
    unfold Trial.Ends
    decide +kernel
  refine ⟨⟨?_, ?_, ?_⟩, ?_⟩
  · simp only [List.forall_mem_cons]
    exact ⟨hclick, hpay, hcheckout, fun c hc => absurd hc List.not_mem_nil⟩
  · simp only [List.forall_mem_cons]
    refine ⟨⟨by decide +kernel, by decide, fun i hi => absurd hi (Nat.not_lt_zero i), rfl⟩,
      ⟨by decide +kernel, by decide, ?_, rfl⟩, fun c hc => absurd hc List.not_mem_nil⟩
    intro i hi
    obtain rfl : i = 0 := Nat.lt_one_iff.1 hi
    exact hfailed
  · exact .cons_cons hclicked.1 (.cons_cons hpaid.1 (.singleton _))
  · exact .cons_cons hclicked.2 (.cons_cons hpaid.2 (.singleton _))

/-- The click is given up behind its deadline. The payment has made one attempt then, and the checkout two; neither
makes another one. -/
theorem checkout_given_up_once :
    atClick.trial.run.1.exhausted = true ∧
      atPay.trial.run.1 = ⟨.failed ⟨.notFound, "click"⟩, 1, true⟩ ∧
      atCheckout.trial.run.1 = ⟨.failed ⟨.notFound, "click"⟩, 2, true⟩ ∧
      atCheckout.trial.discarded.length = 1 := by
  have hexhausted : atClick.trial.run.1.exhausted = true := by decide +kernel
  have hfailed : atClick.call.1.failure? = some ⟨.notFound, "click"⟩ := by decide +kernel
  obtain ⟨htower, hpasses⟩ := tower_of_checkout
  obtain ⟨hlast, hall⟩ := budget_spent_once atClick [atPay, atCheckout] htower hexhausted
  obtain ⟨f, hf, hends⟩ := hall hpasses
  rw [hf] at hfailed
  obtain rfl : f = ⟨.notFound, "click"⟩ := Option.some.inj hfailed
  refine ⟨hexhausted, (hends atPay (by simp)).1, (hends atCheckout (by simp)).1, ?_⟩
  rw [(hlast atCheckout (by simp)).discarded, List.length_map, List.length_range]
  rfl

end Floor

end TestTrail
