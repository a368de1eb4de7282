/-
What is said of a retry beforehand, and what the runner does.

A worker asks its budget before it ends an execution (`grants`), and executes the test again exactly if the budget said
so: `executed_again_iff`. What can be said from the retry number of the result alone (`willBeRetried`) is the same but
for the kind of the failure, which only `grants` looks at. So the two agree unless a failure is of a kind that a retry
does not mend while there are retries left, and then the test is announced as retried and is not
(`announced_but_not_retried`).
-/
import TestTrail.Proofs.Suite.Turns

namespace TestTrail

/-! ## The two predicates -/

namespace Budget

variable {b : Budget} {r : TestResult} {m : UInt32}

theorem willBeRetried_of_grants (hretry : r.retry = b.count) (h : b.grants r = true) : b.willBeRetried r = true := by
  rw [grants_of_retry hretry, Bool.and_eq_true] at h
  exact h.2

/-- a promise from the retry number alone is empty only if the failure cannot be mended -/
theorem willBeRetried_iff (hretry : r.retry = b.count) (hle : b.count ≤ b.max) :
    b.willBeRetried r = true ↔ r.noMoreRetry = false ∧ b.count ≠ b.max := by
  have hlt : r.retry < b.max ↔ b.count ≠ b.max := by
    rw [hretry]
    exact ⟨fun h heq => UInt32.lt_irrefl _ (heq ▸ h), fun h => UInt32.lt_of_le_of_ne hle h⟩
  simp only [willBeRetried, Bool.and_eq_true, Bool.not_eq_true', decide_eq_true_eq, hlt]

theorem agree_iff (hretry : r.retry = b.count) (hle : b.count ≤ b.max) :
    (b.willBeRetried r = true ↔ b.grants r = true) ↔
      mayMend r.error = true ∨ r.noMoreRetry = true ∨ b.count = b.max := by
  rw [grants_of_retry hretry, Bool.and_eq_true]
  cases hsaid : b.willBeRetried r with
  | true =>
    obtain ⟨hmore, hcount⟩ := (willBeRetried_iff hretry hle).1 hsaid
    simp [hmore, hcount]
  | false =>
    have hnot := mt (willBeRetried_iff hretry hle).2 (Bool.eq_false_iff.1 hsaid)
    simp only [Bool.false_eq_true, and_false, iff_self, true_iff]
    by_contra h
    rw [not_or, not_or, Bool.not_eq_true] at h
    exact hnot ⟨Bool.eq_false_iff.2 h.2.1, h.2.2⟩

end Budget

/-! ## The runner -/

namespace Suite

variable {ω : Type}

theorem phase_starting_iff (w : Worker ω) (result : TestResult) (state : MethodState) (steps : List Node) :
    (afterOutcome w result state steps).phase = .starting ↔
      state = .failedRetrying ∧ w.budget.grants result = true := by
  rcases afterOutcome_cases w result state steps with ⟨hstate, hgrants, heq⟩ | ⟨hnot, report, heq⟩
  · rw [heq]
    exact ⟨fun _ => ⟨hstate, hgrants⟩, fun _ => rfl⟩
  · rw [heq]
    exact ⟨fun h => Phase.noConfusion h, fun h => absurd h hnot⟩

/-- the runner's decision: the two steps behind a failed execution lead to a further one exactly if the budget grants
it, whatever other workers do in between -/
theorem executed_again_iff {w : Worker ω} {result : TestResult} {steps : List Node}
    (hphase : w.phase = .ending result steps) (hstatus : result.status = .failure) (before between : Shared ω) :
    (advance (advance w before).1 between).1.phase = .starting ↔ w.budget.grants result = true := by
  obtain ⟨test, b, retry, phase⟩ := w
  obtain rfl : phase = .ending result steps := hphase
  have hsteps : (advance (advance ⟨test, b, retry, .ending result steps⟩ before).1 between).1 =
      afterOutcome
        ⟨test, b, retry, .filingOutcome (ContextState.judge result (b.grants result)).1
          (ContextState.judge result (b.grants result)).2 steps⟩
        (ContextState.judge result (b.grants result)).1 (ContextState.judge result (b.grants result)).2 steps := rfl
  rw [hsteps]
  unfold ContextState.judge
  rw [hstatus]
  cases hg : b.grants result with
  | true =>
    -- the skip that hides the failure has the same error, so the budget answers the same
    have hhidden : b.grants { result with status := .skip } = true := hg
    simp only [if_true, phase_starting_iff, hhidden, and_self]
  | false =>
    simp only [Bool.false_eq_true, if_false, phase_starting_iff, reduceCtorEq, false_and]

end Suite

/-! ## Agreement -/

/-- **What is announced of a retry, and what happens.** Let a budget begin with the maximum `m`, and let it be asked,
retries be taken and the maximum be raised, in any order; let a result carry the budget's count as its retry number. Then
what the number alone says and what the budget grants are the same, exactly unless the failure cannot be mended while it
may be retried otherwise and retries are left; and what is granted was announced.

This is how it stands behind every failed execution in every run of a suite: the worker's budget has such a history, the
result carries its count, and the test is executed again exactly if the budget grants it. -/
theorem retries_announced_and_made {ω : Type} (m : UInt32) :
    (∀ fresh, Budget.ofMax? m = some fresh → ∀ (uses : List Budget.Use) (r : TestResult),
      let b := fresh.after uses
      r.retry = b.count →
        ((b.willBeRetried r = true ↔ b.grants r = true) ↔
          Budget.mayMend r.error = true ∨ r.noMoreRetry = true ∨ b.count = b.max) ∧
        (b.grants r = true → b.willBeRetried r = true)) ∧
      ∀ (context : String) (tests : List (TestCase ω)) (world : ω) (schedule : List Nat),
        ∀ w ∈ ((Suite.start context m tests world).run schedule).workers, ∀ result steps,
          w.phase = .ending result steps → result.status = .failure →
            (∃ fresh uses, Budget.ofMax? m = some fresh ∧ w.budget = fresh.after uses) ∧
              result.retry = w.budget.count ∧
              ∀ before between : Shared ω,
                ((Suite.advance (Suite.advance w before).1 between).1.phase = .starting ↔
                  w.budget.grants result = true) := by
  constructor
  · intro fresh hfresh uses r b hretry
    have hkept := Budget.after_kept hfresh uses
    exact ⟨Budget.agree_iff hretry hkept.le, Budget.willBeRetried_of_grants hretry⟩
  · intro context tests world schedule w hw result steps hphase hstatus
    have hcounted := Suite.counted_of_unfinished hw (by rw [Suite.Worker.isDone, hphase])
    have hresult : w.phase.result? = some result := by
      rw [hphase]
      rfl
    refine ⟨hcounted.reached, ?_, Suite.executed_again_iff hphase hstatus⟩
    rw [hcounted.result result hresult, hcounted.count]

/-- a failed assertion on the first execution -/
def wrongTotal : TestResult :=
  { method := "pay", context := "shop", status := .failure, retry := 0, startMillis := 7, endMillis := 7
    error := some (Failure.recorded ⟨.assertion, "total"⟩) }

/-- a budget that begins with two retries -/
def twoRetries : Budget := ⟨0, 2, 4⟩

/-- two retries are left, so one is announced, but a failed assertion is final -/
theorem announced_but_not_retried :
    Budget.ofMax? 2 = some twoRetries ∧ wrongTotal.status = .failure ∧ wrongTotal.retry = twoRetries.count ∧
      twoRetries.willBeRetried wrongTotal = true ∧ twoRetries.grants wrongTotal = false := by
  decide

/-- a row that is stale in every execution -/
def staleRow : TestCase Unit := ⟨"pay", fun _ world => (.ok ⟨some ⟨.stale, "row"⟩, [], 7, 7⟩, world)⟩

/-- the first result of it -/
def staleResult : TestResult := { wrongTotal with error := some (Failure.recorded ⟨.stale, "row"⟩) }

/-- with two retries the first failure is announced as retried, and the next two steps lead to a further execution -/
theorem stale_row_retried_as_announced :
    (twoRetries.willBeRetried staleResult = true ↔ twoRetries.grants staleResult = true) ∧
      ∀ w ∈ ((Suite.start "shop" 2 [staleRow] ()).run [0, 0, 0]).workers, ∀ before between : Shared Unit,
        (Suite.advance (Suite.advance w before).1 between).1.phase = .starting := by
  obtain ⟨hagree, hmade⟩ := retries_announced_and_made (ω := Unit) 2
  refine ⟨(hagree twoRetries (by decide) [] staleResult rfl).1.2 (Or.inl (by decide)), fun w hw before between => ?_⟩
  have hstep := hmade "shop" [staleRow] () [0, 0, 0] w hw
  obtain rfl : w = ⟨staleRow, twoRetries, 0, .ending staleResult []⟩ := List.mem_singleton.1 hw
  exact ((hstep staleResult [] rfl rfl).2.2 before between).2 (by decide)

end TestTrail
