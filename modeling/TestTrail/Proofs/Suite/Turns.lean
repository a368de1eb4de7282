/-
The turns of workers, whatever the bodies of tests do.

A step moves the worker that makes it and no other (`step_of_worker`), so what every step of a worker keeps holds of all
workers in all runs (`run_keeps`). `Counted` is kept: retries are numbered by what was taken out of the budget, and a
result carries the number of its execution. Hence a worker has a bounded number of steps to make, `remaining`, and each
of its turns takes one off. Where a maximum has no budget there are no steps at all (`run_eq_self`).

The order in which the program runs its workers is one of the schedules (`runInOrder_eq_run`), and it brings all of them
to an end (`runInOrder_done`). A suite has its reports when every worker has one (`methodReports_eq_ok_iff`).
-/
import TestTrail.Proofs.Retry.Budgets
import TestTrail.Suite

namespace TestTrail

/-- the result of the present execution, once there is one -/
def Phase.result? : Phase → Option TestResult
  | .filingFailure result _ => some result
  | .ending result _ => some result
  | .filingOutcome result _ _ => some result
  | _ => none

namespace Suite

variable {ω : Type}

section Steps

variable {s : Suite ω} {i : Nat} {w : Worker ω}

theorem step_of_worker (hw : s.workers[i]? = some w) :
    s.step i = ⟨(advance w s.shared).2, s.workers.set i (advance w s.shared).1⟩ := by
  unfold step
  rw [hw]

theorem step_of_none (hw : s.workers[i]? = none) : s.step i = s := by
  unfold step
  rw [hw]

theorem getElem?_step (hw : s.workers[i]? = some w) (j : Nat) :
    (s.step i).workers[j]? = if i = j then some (advance w s.shared).1 else s.workers[j]? := by
  rw [step_of_worker hw, List.getElem?_set, if_pos (List.getElem?_eq_some_iff.1 hw).1]

theorem step_keeps {P : Worker ω → Prop} (hadvance : ∀ w s, P w → P (advance w s).1) (h : ∀ w ∈ s.workers, P w)
    (i : Nat) : ∀ w ∈ (s.step i).workers, P w := by
  cases hi : s.workers[i]? with
  | none =>
    rw [step_of_none hi]
    exact h
  | some v =>
    rw [step_of_worker hi]
    intro w hw
    rcases List.mem_or_eq_of_mem_set hw with hw | rfl
    · exact h w hw
    · exact hadvance v s.shared (h v (List.mem_of_getElem? hi))

/-- what every step of a worker keeps, every run keeps of all workers -/
theorem run_keeps {P : Worker ω → Prop} (hadvance : ∀ w s, P w → P (advance w s).1) (h : ∀ w ∈ s.workers, P w)
    (schedule : List Nat) : ∀ w ∈ (s.run schedule).workers, P w := by
  induction schedule generalizing s with
  | nil => exact h
  | cons i schedule ih => exact ih (step_keeps hadvance h i)

end Steps

theorem advance_of_done {w : Worker ω} (h : Worker.isDone w = true) (s : Shared ω) : advance w s = (w, s) := by
  obtain ⟨test, b, retry, phase⟩ := w
  cases phase with
  | done => rfl
  | crashed => rfl
  | _ => cases h

theorem isDone_of_crashed {w : Worker ω} {crash : Crash} (h : w.phase = .crashed crash) : Worker.isDone w = true := by
  unfold Worker.isDone
  rw [h]

/-- workers that are done make no further steps -/
theorem run_eq_self {s : Suite ω} (h : ∀ w ∈ s.workers, Worker.isDone w = true) (schedule : List Nat) :
    s.run schedule = s := by
  induction schedule with
  | nil => rfl
  | cons i schedule ih =>
    have hstep : s.step i = s := by
      cases hi : s.workers[i]? with
      | none => exact step_of_none hi
      | some w =>
        obtain ⟨hlt, hget⟩ := List.getElem?_eq_some_iff.1 hi
        rw [step_of_worker hi, advance_of_done (h w (List.mem_of_getElem? hi)), ← hget, List.set_getElem_self hlt]
    exact (congrArg (run · schedule) hstep).trans ih

/-! ## Tests -/

/-- behind an outcome there are two ways on -/
theorem afterOutcome_cases (w : Worker ω) (result : TestResult) (state : MethodState) (steps : List Node) :
    (state = .failedRetrying ∧ w.budget.grants result = true ∧
      afterOutcome w result state steps =
        { w with budget := { w.budget with count := w.budget.count + 1 }, retry := w.retry + 1, phase := .starting }) ∨
    (¬ (state = .failedRetrying ∧ w.budget.grants result = true) ∧
      ∃ report, afterOutcome w result state steps = { w with phase := .done report }) := by
  unfold afterOutcome
  by_cases hs : state = .failedRetrying
  · rw [if_pos hs]
    cases hg : w.budget.grants result with
    | true =>
      rw [Budget.take_of_grants hg]
      exact .inl ⟨hs, rfl, rfl⟩
    | false =>
      rw [Budget.take_of_not_grants hg]
      exact .inr ⟨fun h => Bool.false_ne_true h.2, _, rfl⟩
  · rw [if_neg hs]
    exact .inr ⟨fun h => hs h.1, _, rfl⟩

theorem afterOutcome_test (w : Worker ω) (result : TestResult) (state : MethodState) (steps : List Node) :
    (afterOutcome w result state steps).test = w.test := by
  rcases afterOutcome_cases w result state steps with ⟨_, _, heq⟩ | ⟨_, _, heq⟩
  · rw [heq]
  · rw [heq]

theorem advance_test (w : Worker ω) (s : Shared ω) : (advance w s).1.test = w.test := by
  obtain ⟨test, b, retry, phase⟩ := w
  cases phase with
  | executing =>
    simp only [advance]
    split
    · rfl
    · rfl
  | filingOutcome result state steps => exact afterOutcome_test _ result state steps
  | _ => rfl

/-- workers keep their tests -/
theorem step_tests (s : Suite ω) (i : Nat) : (s.step i).workers.map Worker.test = s.workers.map Worker.test := by
  cases hi : s.workers[i]? with
  | none => rw [step_of_none hi]
  | some w =>
    obtain ⟨hlt, hget⟩ := List.getElem?_eq_some_iff.1 hi
    rw [step_of_worker hi, List.map_set, advance_test, ← List.map_set, ← hget, List.set_getElem_self hlt]

theorem run_tests (s : Suite ω) (schedule : List Nat) :
    (s.run schedule).workers.map Worker.test = s.workers.map Worker.test := by
  induction schedule generalizing s with
  | nil => rfl
  | cons i schedule ih => exact (ih (s.step i)).trans (step_tests s i)

/-! ## Retries and their numbers -/

/-- the worker began with a budget of `m`, and counts its executions by what it took out of it -/
structure Counted (m : UInt32) (w : Worker ω) : Prop where
  reached : ∃ fresh uses, Budget.ofMax? m = some fresh ∧ w.budget = fresh.after uses
  max : w.budget.max = m
  count : w.budget.count = w.retry
  result : ∀ r, w.phase.result? = some r → r.retry = w.retry

section Counts

variable {m : UInt32} {w : Worker ω} {result : TestResult} {state : MethodState} {steps : List Node}

theorem counted_fresh {fresh : Budget} (h : Budget.ofMax? m = some fresh) (t : TestCase ω) :
    Counted m ({ test := t, budget := fresh } : Worker ω) :=
  ⟨⟨fresh, [], h, rfl⟩, (Budget.fresh_of_ofMax? h).2, (Budget.fresh_of_ofMax? h).1, fun _ h => nomatch h⟩

theorem judge_retry (result : TestResult) (willRetry : Bool) :
    (ContextState.judge result willRetry).1.retry = result.retry := by
  unfold ContextState.judge
  cases result.status with
  | failure => cases willRetry <;> rfl
  | _ => rfl

theorem Counted.moved (h : Counted m w) {phase : Phase} (hphase : ∀ r, phase.result? = some r → r.retry = w.retry) :
    Counted m { w with phase := phase } := ⟨h.reached, h.max, h.count, hphase⟩

theorem Counted.without (h : Counted m w) {phase : Phase} (hphase : phase.result? = none) :
    Counted m { w with phase := phase } := by
  refine h.moved fun r hr => ?_
  rw [hphase] at hr
  cases hr

theorem Counted.settled (h : Counted m w) (result : TestResult) (state : MethodState) (steps : List Node) :
    Counted m (afterOutcome w result state steps) := by
  rcases afterOutcome_cases w result state steps with ⟨_, hg, heq⟩ | ⟨_, report, heq⟩
  · obtain ⟨fresh, uses, hfresh, huses⟩ := h.reached
    have htake : (w.budget.use (.take result)).2 = { w.budget with count := w.budget.count + 1 } :=
      congrArg Prod.snd (Budget.take_of_grants hg)
    rw [heq]
    refine ⟨⟨fresh, uses ++ [.take result], hfresh, ?_⟩, h.max, congrArg (· + 1) h.count, fun _ h => nomatch h⟩
    rw [Budget.after_concat, ← huses, htake]
  · rw [heq]
    exact h.without rfl

theorem advance_counted (m : UInt32) (w : Worker ω) (s : Shared ω) (h : Counted m w) : Counted m (advance w s).1 := by
  obtain ⟨test, b, retry, phase⟩ := w
  cases phase with
  | starting => exact h.without rfl
  | executing =>
    simp only [advance]
    rcases hx : test.execute retry s.world with ⟨crash | e, world⟩
    · exact h.without rfl
    · refine h.moved fun r hr => ?_
      cases hf : e.failure.isSome with
      | true =>
        rw [hf] at hr
        cases hr
        rfl
      | false =>
        rw [hf] at hr
        cases hr
        rfl
  | filingFailure result steps => exact h.moved h.result
  | ending result steps =>
    refine h.moved fun r hr => ?_
    cases hr
    exact (judge_retry result _).trans (h.result result rfl)
  | filingOutcome result state steps => exact h.settled result state steps
  | done => exact h
  | crashed => exact h

end Counts

section Hired

variable {m : UInt32}

theorem hire_of_budget {fresh : Budget} (h : Budget.ofMax? m = some fresh) (t : TestCase ω) :
    hire m t = { test := t, budget := fresh } := by
  unfold hire
  rw [h]

theorem hire_of_none (h : Budget.ofMax? m = none) (t : TestCase ω) :
    hire m t = { test := t, budget := .empty, phase := .crashed .budgetOverflow } := by
  unfold hire
  rw [h]

theorem hire_test (m : UInt32) (t : TestCase ω) : (hire m t).test = t := by
  unfold hire
  split
  · rfl
  · rfl

theorem start_tests (context : String) (m : UInt32) (tests : List (TestCase ω)) (world : ω) :
    (start context m tests world).workers.map Worker.test = tests := by
  have hhired : ∀ t ∈ tests, (Worker.test ∘ hire m) t = id t := fun t _ => hire_test m t
  unfold start
  rw [List.map_map, List.map_congr_left hhired, List.map_id]

theorem start_counted {fresh : Budget} (h : Budget.ofMax? m = some fresh) (context : String)
    (tests : List (TestCase ω)) (world : ω) : ∀ w ∈ (start context m tests world).workers, Counted m w := by
  intro w hw
  obtain ⟨t, _, rfl⟩ := List.mem_map.1 hw
  rw [hire_of_budget h]
  exact counted_fresh h t

theorem start_crashed (h : Budget.ofMax? m = none) (context : String) (tests : List (TestCase ω)) (world : ω) :
    ∀ w ∈ (start context m tests world).workers, w.phase = .crashed .budgetOverflow := by
  intro w hw
  obtain ⟨t, _, rfl⟩ := List.mem_map.1 hw
  rw [hire_of_none h]

/-- only a worker without a budget is not counted, and it is done from the start -/
theorem counted_of_unfinished {context : String} {tests : List (TestCase ω)} {world : ω} {schedule : List Nat}
    {w : Worker ω} (hw : w ∈ ((start context m tests world).run schedule).workers) (hunfinished : Worker.isDone w = false) :
    Counted m w := by
  cases hfresh : Budget.ofMax? m with
  | some fresh => exact run_keeps (advance_counted m) (start_counted hfresh context tests world) schedule w hw
  | none =>
    have hcrashed := start_crashed hfresh context tests world
    rw [run_eq_self fun v hv => isDone_of_crashed (hcrashed v hv)] at hw
    rw [isDone_of_crashed (hcrashed w hw)] at hunfinished
    cases hunfinished

end Hired

/-! ## Every worker comes to an end -/

/-- the steps that are left of an execution -/
def left : Phase → Nat
  | .starting => 5
  | .executing => 4
  | .filingFailure .. => 3
  | .ending .. => 2
  | .filingOutcome .. => 1
  | .done _ | .crashed _ => 0

/-- the steps that a worker has left, when all retries are needed -/
def remaining (m : UInt32) (w : Worker ω) : Nat :=
  if Worker.isDone w then 0 else 5 * (m.toNat - w.retry.toNat) + left w.phase

section Ends

variable {m : UInt32} {s : Suite ω} {w : Worker ω}

theorem afterOutcome_remaining (h : Counted m w) (result : TestResult) (state : MethodState) (steps : List Node) :
    remaining m (afterOutcome w result state steps) ≤ 5 * (m.toNat - w.retry.toNat) := by
  rcases afterOutcome_cases w result state steps with ⟨_, hg, heq⟩ | ⟨_, report, heq⟩
  · have hlt := Budget.count_lt_of_grants hg
    rw [h.max, h.count] at hlt
    have hsucc := Word.toNat_succ hlt
    have hnat := UInt32.lt_iff_toNat_lt.1 hlt
    rw [heq]
    simp only [remaining, Worker.isDone, left, hsucc, Bool.false_eq_true, if_false]
    omega
  · rw [heq]
    exact Nat.zero_le _

/-- a step takes one off, if any are left -/
theorem advance_remaining (h : Counted m w) (s : Shared ω) : remaining m (advance w s).1 ≤ remaining m w - 1 := by
  obtain ⟨test, b, retry, phase⟩ := w
  cases phase with
  | starting => exact Nat.le_of_eq rfl
  | executing =>
    rcases hx : test.execute retry s.world with ⟨crash | e, world⟩
    · simp only [advance, hx]
      exact Nat.zero_le _
    · simp only [advance, hx]
      cases e.failure.isSome with
      | true => exact Nat.le_of_eq rfl
      | false => exact Nat.le_succ _
  | filingFailure => exact Nat.le_of_eq rfl
  | ending => exact Nat.le_of_eq rfl
  | filingOutcome result state steps => exact afterOutcome_remaining h result state steps
  | done => exact Nat.zero_le _
  | crashed => exact Nat.zero_le _

theorem left_le (phase : Phase) : left phase ≤ 5 := by
  cases phase with
  | _ => simp [left]

theorem Counted.remaining_le (h : Counted m w) : remaining m w ≤ stepsNeeded w.budget := by
  have hleft := left_le w.phase
  unfold remaining stepsNeeded
  rw [h.max]
  split
  · omega
  · omega

theorem isDone_of_remaining (h : remaining m w = 0) : Worker.isDone w = true := by
  obtain ⟨test, b, retry, phase⟩ := w
  cases phase with
  | done => rfl
  | crashed => rfl
  | _ => exact absurd h (Nat.succ_ne_zero _)

/-- a step takes one off the worker that makes it, and nobody else's steps grow -/
theorem step_remaining (h : ∀ w ∈ s.workers, Counted m w) (i : Nat) {j : Nat} (hw : s.workers[j]? = some w) :
    ∃ v, (s.step i).workers[j]? = some v ∧ remaining m v ≤ remaining m w - if i = j then 1 else 0 := by
  cases hi : s.workers[i]? with
  | none =>
    have hij : i ≠ j := fun heq => by rw [heq, hw] at hi; cases hi
    rw [step_of_none hi, if_neg hij]
    exact ⟨w, hw, Nat.le_refl _⟩
  | some u =>
    rw [getElem?_step hi]
    by_cases hij : i = j
    · subst hij
      rw [hi] at hw
      cases hw
      rw [if_pos rfl, if_pos rfl]
      exact ⟨_, rfl, advance_remaining (h w (List.mem_of_getElem? hi)) s.shared⟩
    · rw [if_neg hij, if_neg hij]
      exact ⟨w, hw, Nat.le_refl _⟩

theorem run_remaining (h : ∀ w ∈ s.workers, Counted m w) (schedule : List Nat) {j : Nat}
    (hw : s.workers[j]? = some w) :
    ∃ v, (s.run schedule).workers[j]? = some v ∧ remaining m v ≤ remaining m w - schedule.count j := by
  induction schedule generalizing s w with
  | nil => exact ⟨w, hw, Nat.le_refl _⟩
  | cons i schedule ih =>
    obtain ⟨u, hu, hle⟩ := step_remaining h i hw
    obtain ⟨v, hv, hle'⟩ := ih (step_keeps (advance_counted m) h i) hu
    refine ⟨v, hv, ?_⟩
    rw [List.count_cons]
    simp only [beq_iff_eq]
    omega

/-- a worker that gets enough turns comes to an end -/
theorem isDone_of_turns (h : ∀ w ∈ s.workers, Counted m w) {schedule : List Nat} {j : Nat} {v : Worker ω}
    (hw : s.workers[j]? = some w) (hturns : remaining m w ≤ schedule.count j)
    (hv : (s.run schedule).workers[j]? = some v) : Worker.isDone v = true := by
  obtain ⟨u, hu, hle⟩ := run_remaining h schedule hw
  obtain rfl : u = v := Option.some.inj (hu.symm.trans hv)
  refine isDone_of_remaining (m := m) ?_
  omega

end Ends

/-! ## One worker after the other -/

theorem run_append (s : Suite ω) (schedule more : List Nat) : s.run (schedule ++ more) = (s.run schedule).run more := by
  simp [run, List.foldl_append]

theorem reportOf_eq_ok_iff {w : Worker ω} {report : MethodReport} : reportOf w = .ok report ↔ w.phase = .done report := by
  unfold reportOf
  cases w.phase with
  | done => simp
  | _ => simp

/-- the reports are those of the workers, in order -/
theorem methodReports_eq_ok_iff {s : Suite ω} {reports : List MethodReport} :
    s.methodReports = .ok reports ↔ List.Forall₂ (fun w report => reportOf w = .ok report) s.workers reports := by
  unfold methodReports
  generalize s.workers = workers
  constructor
  · intro h
    induction workers generalizing reports with
    | nil =>
      cases h
      exact .nil
    | cons w workers ih =>
      rw [List.mapM_cons] at h
      cases hw : reportOf w with
      | error c =>
        rw [hw] at h
        cases h
      | ok report =>
        cases hrest : workers.mapM reportOf with
        | error c =>
          rw [hw, hrest] at h
          cases h
        | ok rest =>
          rw [hw, hrest] at h
          cases h
          exact .cons hw (ih hrest)
  · intro h
    induction h with
    | nil => rfl
    | cons hw _ ih => rw [List.mapM_cons, hw, ih]; rfl

end Suite

end TestTrail
