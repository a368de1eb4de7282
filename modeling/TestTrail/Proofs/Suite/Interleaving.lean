/-
All workers of a suite, under any schedule.

`Sound` is the invariant: every worker fits the shared state, and methods without a worker have nothing in it. A step
of one worker moves this worker on (`advance_fits`) and leaves the methods of the others alone (`advance_untouched`),
since no two tests have the same name. `run_sound` has it for whole runs, and every run that gives each worker enough
turns brings all of them to an end.
-/
import TestTrail.Proofs.Suite.Workers

namespace TestTrail.Suite

variable {ω : Type}

/-! ## The context -/

/-- a context that is about to start, with a coordinator that may know of others -/
def startWith (c : Coordinator) (context : String) (retries : UInt32) (tests : List (TestCase ω)) (world : ω) :
    Suite ω :=
  let s := start context retries tests world
  { s with shared := { s.shared with coordinator := c.contextStart context } }

theorem startWith_empty (context : String) (retries : UInt32) (tests : List (TestCase ω)) (world : ω) :
    startWith {} context retries tests world = start context retries tests world := rfl

/-- the context is the one that runs -/
structure Running (context : String) (s : Shared ω) : Prop where
  shared : s.context = context
  native : s.native.context = context
  started : s.coordinator.running.get? context = some (ledger s)

section Steps

variable {context : String} {m : UInt32} {outcome : UInt32 → Option Failure} {s : Shared ω} {w : Worker ω}
  {past : List TestResult}

theorem running_announce (h : Running context s) (method : String) : Running context (announce s method) := by
  refine ⟨h.shared, h.native, ?_⟩
  rw [ledger_announce]
  simp only [announce, Coordinator.methodStart, Keyed.get?_set, h.shared, if_true]
  simp only [ledger, h.shared]

theorem running_conclude (h : Running context s) (result : TestResult) (willRetry : Bool) (count : UInt32)
    (hc : result.context = context) : Running context (conclude s result willRetry count) := by
  refine ⟨h.shared, h.native, ?_⟩
  rw [ledger_conclude s result willRetry count (hc.trans h.shared.symm)]
  simp only [conclude, Coordinator.methodEnd, Keyed.get?_set, hc, if_true]
  simp only [ledger, h.shared]

theorem running_settle (h : Running context s) (result : TestResult) : Running context (settle s result) := by
  refine ⟨h.shared, ?_, h.started⟩
  unfold settle fileOutcome
  cases result.status with
  | _ => exact h.native

theorem advance_running (h : Fits context m outcome s w past) (hr : Running context s) :
    Running context (advance w s).2 := by
  obtain ⟨test, b, retry, phase⟩ := w
  cases h.stage with
  | starting =>
    rw [advance_starting]
    exact running_announce hr test.name
  | executing =>
    simp only [advance]
    split
    · exact ⟨hr.shared, hr.native, hr.started⟩
    · exact ⟨hr.shared, hr.native, hr.started⟩
  | filingFailure a steps ha => exact ⟨hr.shared, hr.native, hr.started⟩
  | ending a steps ha =>
    rw [advance_ending]
    exact running_conclude hr a _ _ ha.context
  | retrying a steps ha =>
    rw [advance_filingOutcome]
    exact running_settle hr (hidden a)
  | finishing a steps ha =>
    rw [advance_filingOutcome]
    exact running_settle hr a
  | done => exact hr

end Steps

/-! ## The invariant -/

structure Sound (context : String) (m : UInt32) (tests : List (TestCase ω))
    (outcome : TestCase ω → UInt32 → Option Failure) (s : Suite ω) : Prop where
  running : Running context s.shared
  workers : s.workers.map Worker.test = tests
  fits : ∀ (i : Nat) (w : Worker ω), s.workers[i]? = some w →
    ∃ past, Fits context m (outcome w.test) s.shared w past
  others : ∀ method, method ∉ tests.map TestCase.name → account s.shared method = {}

section Runs

variable {context : String} {m : UInt32} {tests : List (TestCase ω)} {outcome : TestCase ω → UInt32 → Option Failure}
  {s : Suite ω}

theorem ledger_startWith (c : Coordinator) (context : String) (m : UInt32) (tests : List (TestCase ω)) (world : ω) :
    ledger (startWith c context m tests world).shared = {} := by
  simp only [ledger, startWith, start, Coordinator.contextStart, Coordinator.stateOf, Keyed.get?_set, if_true,
    Option.getD_some]

theorem account_startWith (c : Coordinator) (context : String) (m : UInt32) (tests : List (TestCase ω)) (world : ω)
    (method : String) : account (startWith c context m tests world).shared method = {} := by
  unfold account
  rw [ledger_startWith]
  rfl

theorem startWith_sound {fresh : Budget} (hfresh : Budget.ofMax? m = some fresh) (c : Coordinator) (context : String)
    (tests : List (TestCase ω)) (world : ω) (outcome : TestCase ω → UInt32 → Option Failure) :
    Sound context m tests outcome (startWith c context m tests world) := by
  refine ⟨⟨rfl, rfl, ?_⟩, start_tests context m tests world, fun i w hw => ⟨[], ?_⟩,
    fun method _ => account_startWith c context m tests world method⟩
  · rw [ledger_startWith]
    simp only [startWith, start, Coordinator.contextStart, Keyed.get?_set, if_true]
  · obtain ⟨t, _, rfl⟩ := List.mem_map.1 (List.mem_of_getElem? hw)
    obtain ⟨hcount, hmax⟩ := Budget.fresh_of_ofMax? hfresh
    rw [hire_of_budget hfresh]
    refine ⟨hmax, hcount, UInt32.zero_le, rfl, fun a ha => absurd ha List.not_mem_nil, fun k hk => ?_,
      fun h => absurd rfl h, ?_⟩
    · exact absurd hk UInt32.not_lt_zero
    · exact .starting (account_startWith c context m tests world _)

/-- workers at different places have tests of different names -/
theorem Sound.names_ne (h : Sound context m tests outcome s) (hnames : (tests.map TestCase.name).Nodup) {i j : Nat}
    {v w : Worker ω} (hv : s.workers[i]? = some v) (hw : s.workers[j]? = some w) (hij : i ≠ j) :
    v.test.name ≠ w.test.name := by
  intro heq
  have hname : ∀ {k : Nat} {x : Worker ω}, s.workers[k]? = some x →
      (tests.map TestCase.name)[k]? = some x.test.name := by
    intro k x hx
    rw [← h.workers, List.map_map, List.getElem?_map, hx]
    rfl
  have hi := hname hv
  have hlt : i < (tests.map TestCase.name).length := (List.getElem?_eq_some_iff.1 hi).1
  exact hij ((List.getElem?_inj hlt hnames).1 (hi.trans (by rw [hname hw, heq])))

theorem Sound.test_mem (h : Sound context m tests outcome s) {i : Nat} {w : Worker ω} (hw : s.workers[i]? = some w) :
    w.test ∈ tests := by
  rw [← h.workers]
  exact List.mem_map_of_mem (List.mem_of_getElem? hw)

theorem step_sound (hnames : (tests.map TestCase.name).Nodup) (hreturns : ∀ t ∈ tests, t.Returns (outcome t))
    (h : Sound context m tests outcome s) (i : Nat) : Sound context m tests outcome (s.step i) := by
  cases hw : s.workers[i]? with
  | none => rw [step_of_none hw]; exact h
  | some w =>
    obtain ⟨past, hfits⟩ := h.fits i w hw
    have hc := h.running.shared
    have hmem := h.test_mem hw
    have ht := hreturns w.test hmem
    have hshared : (s.step i).shared = (advance w s.shared).2 := by rw [step_of_worker hw]
    refine ⟨?_, (step_tests s i).trans h.workers, ?_, ?_⟩
    · rw [hshared]
      exact advance_running hfits h.running
    · intro j v hv
      rw [getElem?_step hw] at hv
      rw [hshared]
      by_cases hij : i = j
      · rw [if_pos hij] at hv
        cases hv
        rw [advance_test]
        exact advance_fits hfits hc ht
      · rw [if_neg hij] at hv
        obtain ⟨before, hv'⟩ := h.fits j v hv
        exact ⟨before, hv'.untouched (advance_untouched hfits hc ht (h.names_ne hnames hw hv hij))⟩
    · intro method hm
      have hne : w.test.name ≠ method := fun heq => hm (heq ▸ List.mem_map_of_mem hmem)
      rw [hshared, (advance_untouched hfits hc ht hne).account]
      exact h.others method hm

theorem run_sound (hnames : (tests.map TestCase.name).Nodup) (hreturns : ∀ t ∈ tests, t.Returns (outcome t))
    (h : Sound context m tests outcome s) (schedule : List Nat) : Sound context m tests outcome (s.run schedule) := by
  induction schedule generalizing s with
  | nil => exact h
  | cons i schedule ih => exact ih (step_sound hnames hreturns h i)

/-! ## Every worker comes to an end -/

/-- workers that get enough turns come to an end -/
theorem run_done {fresh : Budget} (hfresh : Budget.ofMax? m = some fresh) (hnames : (tests.map TestCase.name).Nodup)
    (hreturns : ∀ t ∈ tests, t.Returns (outcome t)) (c : Coordinator) (world : ω) (schedule : List Nat)
    (hturns : ∀ i < tests.length, stepsNeeded fresh ≤ schedule.count i) :
    ∀ w ∈ ((startWith c context m tests world).run schedule).workers, Worker.isDone w = true := by
  have hsound := startWith_sound hfresh c context tests world outcome
  have hcounted : ∀ w ∈ (startWith c context m tests world).workers, Counted m w :=
    start_counted hfresh context tests world
  have hlength : ((startWith c context m tests world).run schedule).workers.length = tests.length := by
    rw [← List.length_map, (run_sound hnames hreturns hsound schedule).workers]
  intro w hw
  obtain ⟨i, hi, rfl⟩ := List.mem_iff_getElem.1 hw
  have hlt : i < tests.length := hlength ▸ hi
  have hstart : (startWith c context m tests world).workers[i]? = some { test := tests[i], budget := fresh } := by
    simp only [startWith, start, List.getElem?_map, List.getElem?_eq_getElem hlt, Option.map_some,
      hire_of_budget hfresh]
  have hremaining := (counted_fresh hfresh tests[i]).remaining_le
  exact isDone_of_turns hcounted hstart (Nat.le_trans hremaining (hturns i hlt)) (List.getElem?_eq_getElem hi)

/-! ## No worker starts -/

/-- where the maximum has no budget, a context stays as it is -/
theorem run_startWith_of_none (hnone : Budget.ofMax? m = none) (c : Coordinator) (world : ω) (schedule : List Nat) :
    (startWith c context m tests world).run schedule = startWith c context m tests world := by
  refine run_eq_self (fun w hw => ?_) schedule
  exact isDone_of_crashed (start_crashed hnone context tests world w hw)

theorem methodReports_startWith_of_none (hnone : Budget.ofMax? m = none) (c : Coordinator) (world : ω)
    (htests : tests ≠ []) : (startWith c context m tests world).methodReports = .error .budgetOverflow := by
  obtain ⟨t, ts, rfl⟩ := List.exists_cons_of_ne_nil htests
  have hreport : reportOf (hire m t) = .error .budgetOverflow := by
    rw [hire_of_none hnone]
    rfl
  simp only [methodReports, startWith, start, List.map_cons, List.mapM_cons, hreport]
  rfl

end Runs

end TestTrail.Suite
