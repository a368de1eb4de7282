/-
What is reported of a context does not depend on how its workers took turns.

A failure is filed with the runner before the coordinator decides whether it counts, and a failure that is retried
leaves a failed result and a skipped one behind. Ending the context takes them out again, by method for the skips and
by key for the failures, but only when something was retried; `Fits.remains` has both cases for one method. What is
left of all methods is put together in `final_outcomes_under_any_schedule`: one result per test, that of its last
execution. That is so as long as the maximum of retries has a budget; otherwise no test is executed at all.
-/
import TestTrail.Proofs.Retry.Contexts
import TestTrail.Proofs.Suite.Interleaving

namespace TestTrail

/-! ## Lists of results -/

theorem perm_of_filter_about {xs ys : List TestResult}
    (h : ∀ method, xs.filter (TestResult.about method) = ys.filter (TestResult.about method)) : xs.Perm ys := by
  rw [List.perm_iff_count]
  intro r
  have hr : r.about r.method = true := TestResult.about_eq_true.2 rfl
  rw [← List.count_filter hr, h, List.count_filter hr]

theorem filter_about_of_mem {rs : List TestResult} (hn : (rs.map TestResult.method).Nodup) {r : TestResult}
    (hr : r ∈ rs) : rs.filter (TestResult.about r.method) = [r] := by
  induction rs with
  | nil => exact absurd hr List.not_mem_nil
  | cons x rs ih =>
    rw [List.map_cons, List.nodup_cons] at hn
    rcases List.mem_cons.1 hr with rfl | hr
    · have hrest : rs.filter (TestResult.about r.method) = [] := by
        refine List.filter_eq_nil_iff.2 fun y hy ha => hn.1 ?_
        rw [← TestResult.about_eq_true.1 ha]
        exact List.mem_map_of_mem hy
      rw [List.filter_cons_of_pos (TestResult.about_eq_true.2 rfl), hrest]
    · have hx : ¬ x.about r.method = true := by
        intro ha
        refine hn.1 ?_
        rw [TestResult.about_eq_true.1 ha]
        exact List.mem_map_of_mem hr
      rw [List.filter_cons_of_neg hx, ih hn.2 hr]

theorem exists_forall₂ {α β : Type} {R : α → β → Prop} {xs : List α} (h : ∀ x ∈ xs, ∃ y, R x y) :
    ∃ ys, List.Forall₂ R xs ys := by
  induction xs with
  | nil => exact ⟨[], .nil⟩
  | cons x xs ih =>
    obtain ⟨y, hy⟩ := h x List.mem_cons_self
    obtain ⟨ys, hys⟩ := ih fun z hz => h z (List.mem_cons_of_mem x hz)
    exact ⟨y :: ys, .cons hy hys⟩

theorem exists_of_mem_forall₂ {α β : Type} {R : α → β → Prop} {xs : List α} {ys : List β} (h : List.Forall₂ R xs ys)
    {y : β} (hy : y ∈ ys) : ∃ x ∈ xs, R x y := by
  induction h with
  | nil => cases hy
  | cons hxy _ ih =>
    rcases List.mem_cons.1 hy with rfl | hy
    · exact ⟨_, List.mem_cons_self, hxy⟩
    · obtain ⟨x, hx, hxy⟩ := ih hy
      exact ⟨x, List.mem_cons_of_mem _ hx, hxy⟩

/-- the result has this status -/
def TestResult.has (status : TestStatus) (r : TestResult) : Bool := r.status == status

namespace Suite

open ContextState (ended_of_retried ended_of_not_retried)
open Coordinator (contextEnd_eq)

variable {ω : Type}

/-! ## The end of a context -/

/-- what is left of a method, when `a` is the result of its last execution -/
structure Remains (s : Shared ω) (method : String) (rs : List TestResult) : Prop where
  passed : ((ledger s).ended s.native).1.passed.ofMethod method = rs.filter (TestResult.has .success)
  failed : ((ledger s).ended s.native).1.failed.ofMethod method = rs.filter (TestResult.has .failure)
  skipped : ((ledger s).ended s.native).1.skipped.ofMethod method = []
  recorded : ((ledger s).ended s.native).2.failed.ofMethod method = rs.filter (TestResult.has .failure)

theorem remains_of_empty {s : Shared ω} {method : String} (h : account s method = {}) : Remains s method [] := by
  have hpassed : s.native.passed.ofMethod method = [] := congrArg Account.passed h
  have hfailed : s.native.failed.ofMethod method = [] := congrArg Account.failed h
  have hskipped : s.native.skipped.ofMethod method = [] := congrArg Account.skipped h
  have hrecorded : (ledger s).failed.ofMethod method = [] := congrArg Account.recorded h
  by_cases hr : (ledger s).handleNeeded = true
  · constructor
    · rw [ended_of_retried _ hr]
      exact hpassed
    · rw [ended_of_retried _ hr]
      simp only [reconcile, removeRetriedFailures, ResultMap.ofMethod_retain, hfailed, List.filter_nil]
    · rw [ended_of_retried _ hr]
      simp only [reconcile, removeSettledSkips, ResultMap.ofMethod_retain, hskipped, List.filter_nil]
    · rw [ended_of_retried _ hr]
      exact hrecorded
  · constructor
    · rw [ended_of_not_retried _ hr]; exact hpassed
    · rw [ended_of_not_retried _ hr]; exact hfailed
    · rw [ended_of_not_retried _ hr]; exact hskipped
    · rw [ended_of_not_retried _ hr]; exact hfailed

section Methods

variable {context : String} {m : UInt32} {outcome : UInt32 → Option Failure} {s : Shared ω} {w : Worker ω}
  {past : List TestResult} {a : TestResult}

theorem Fits.done (h : Fits context m outcome s w past) (hd : Worker.isDone w = true) :
    ∃ a steps, w.phase = .done (reportOn a steps) ∧ Attempt context w.test.name outcome w.retry a ∧
      Ends m (outcome w.retry) w.retry ∧ account s w.test.name = closed context past a := by
  obtain ⟨test, b, retry, phase⟩ := w
  cases h.stage with
  | done a steps ha he hacc => exact ⟨a, steps, rfl, ha, he, hacc⟩
  | _ => cases hd

/-- a skip of an earlier execution goes, since its method has a final failure or passed -/
theorem removes_skip (hacc : account s w.test.name = closed context past a) {r : TestResult}
    (hr : r.method = w.test.name) :
    (!(ledger s).failed.containsMethod r.method && !s.native.passed.containsMethod r.method) = false := by
  have hpassed : s.native.passed.ofMethod w.test.name = _ := congrArg Account.passed hacc
  have hrecorded : (ledger s).failed.ofMethod w.test.name = _ := congrArg Account.recorded hacc
  rw [hr]
  by_cases hs : a.status = .success
  · have hc : s.native.passed.containsMethod w.test.name = true := by
      rw [ResultMap.containsMethod_iff, hpassed]
      exact ⟨a, by simp [closed, hs]⟩
    rw [hc, Bool.not_true, Bool.and_false]
  · have hc : (ledger s).failed.containsMethod w.test.name = true := by
      rw [ResultMap.containsMethod_iff, hrecorded]
      exact ⟨a, by simp [closed, hs]⟩
    rw [hc, Bool.not_true, Bool.false_and]

/-- of the failures of a method the coordinator knows the last one by its key, if it is final -/
theorem knows_iff (h : Fits context m outcome s w past) (hacc : account s w.test.name = closed context past a)
    (ha : Attempt context w.test.name outcome w.retry a) {r : TestResult} (hr : r ∈ past ∨ r = a) :
    (ledger s).failed.containsKey r.key = true ↔ r = a ∧ ¬ a.status = .success := by
  have hrecorded : (ledger s).failed.ofMethod w.test.name = if a.status = .success then [] else [a] :=
    congrArg Account.recorded hacc
  have hmethod : r.key.method = w.test.name := by
    rcases hr with hr | rfl
    · exact (h.superseded r hr).1
    · exact ha.method
  rw [ResultMap.containsKey_iff, hmethod, hrecorded]
  by_cases hs : a.status = .success
  · simp [hs]
  · simp only [hs, if_false, List.mem_singleton, exists_eq_left, not_false_eq_true, and_true]
    constructor
    · intro hk
      rcases hr with hr | hr
      · exact absurd (congrArg ResultKey.retry hk).symm (h.fresh hr ha.retry)
      · exact hr
    · rintro rfl
      rfl

theorem Fits.remains (h : Fits context m outcome s w past) (hacc : account s w.test.name = closed context past a)
    (ha : Attempt context w.test.name outcome w.retry a) : Remains s w.test.name [a] := by
  have hpassed : s.native.passed.ofMethod w.test.name = if a.status = .success then [a] else [] :=
    congrArg Account.passed hacc
  have hfailed : s.native.failed.ofMethod w.test.name = if a.status = .success then past else past ++ [a] :=
    congrArg Account.failed hacc
  have hskipped : s.native.skipped.ofMethod w.test.name = past.map hidden := congrArg Account.skipped hacc
  have hrecorded : (ledger s).failed.ofMethod w.test.name = if a.status = .success then [] else [a] :=
    congrArg Account.recorded hacc
  have hsuccess : [a].filter (TestResult.has .success) = if a.status = .success then [a] else [] := by
    by_cases hs : a.status = .success <;> simp [TestResult.has, hs]
  have hfailure : [a].filter (TestResult.has .failure) = if a.status = .success then [] else [a] := by
    rcases ha.status_cases with ⟨hs, _⟩ | ⟨hs, _⟩ <;> simp [TestResult.has, hs]
  by_cases hr : (ledger s).handleNeeded = true
  · constructor
    · rw [ended_of_retried _ hr, hsuccess]
      exact hpassed
    · rw [ended_of_retried _ hr, hfailure]
      simp only [reconcile, removeRetriedFailures, ResultMap.ofMethod_retain, hfailed]
      have hpast : past.filter (fun r => (ledger s).failed.containsKey r.key) = [] := by
        refine List.filter_eq_nil_iff.2 fun r hmem hk => ?_
        have heq := ((knows_iff h hacc ha (Or.inl hmem)).1 hk).1
        exact h.fresh hmem ha.retry (by rw [heq])
      by_cases hs : a.status = .success
      · rw [if_pos hs, if_pos hs, hpast]
      · have hlast : (ledger s).failed.containsKey a.key = true := (knows_iff h hacc ha (Or.inr rfl)).2 ⟨rfl, hs⟩
        have hkept : [a].filter (fun r => (ledger s).failed.containsKey r.key) = [a] :=
          List.filter_eq_self.2 fun r hmem => by rw [List.mem_singleton.1 hmem]; exact hlast
        rw [if_neg hs, if_neg hs, List.filter_append, hpast, hkept, List.nil_append]
    · rw [ended_of_retried _ hr]
      simp only [reconcile, removeSettledSkips, ResultMap.ofMethod_retain, hskipped]
      refine List.filter_eq_nil_iff.2 fun r hmem hk => ?_
      obtain ⟨x, hx, rfl⟩ := List.mem_map.1 hmem
      rw [removes_skip hacc (r := hidden x) (h.superseded x hx).1] at hk
      exact Bool.false_ne_true hk
    · rw [ended_of_retried _ hr, hfailure]
      exact hrecorded
  · -- nothing was retried, so there was one execution only
    have hpast : past = [] := by
      by_contra hne
      exact hr (h.again hne)
    subst hpast
    have hfailed' : s.native.failed.ofMethod w.test.name = [a].filter (TestResult.has .failure) := by
      rw [hfailure, hfailed]
      rfl
    constructor
    · rw [ended_of_not_retried _ hr, hsuccess]; exact hpassed
    · rw [ended_of_not_retried _ hr]; exact hfailed'
    · rw [ended_of_not_retried _ hr]; exact hskipped
    · rw [ended_of_not_retried _ hr]; exact hfailed'

/-- a method is announced once for each of its executions -/
theorem count_told (context method : String) (past : List TestResult) (hm : ∀ a ∈ past, a.method = method) :
    (past.flatMap (retriedHooks context)).count (.methodStart context method) = past.length := by
  induction past with
  | nil => rfl
  | cons a past ih =>
    have ha : a.method = method := hm a List.mem_cons_self
    have hone : (retriedHooks context a).count (.methodStart context method) = 1 := by
      simp [retriedHooks, ha]
    rw [List.flatMap_cons, List.count_append, hone, ih fun x hx => hm x (List.mem_cons_of_mem a hx), List.length_cons,
      Nat.add_comm]

/-- `a` is the result of the last execution of the test, and the coordinator was told so -/
structure Final (context : String) (m : UInt32) (outcome : UInt32 → Option Failure) (hooks : List Hook)
    (t : TestCase ω) (a : TestResult) : Prop where
  last : LastRetry m outcome a.retry
  within : a.retry ≤ m
  attempt : Attempt context t.name outcome a.retry a
  executions : hooks.count (.methodStart context t.name) = a.retry.toNat + 1
  told : .methodEnd a a.retry (finalState a) ∈ hooks

theorem Fits.final (h : Fits context m outcome s w past) (hacc : account s w.test.name = closed context past a)
    (ha : Attempt context w.test.name outcome w.retry a) (he : Ends m (outcome w.retry) w.retry) :
    Final context m outcome s.hooks w.test a := by
  have htold : s.hooks.filter (Hook.about w.test.name) = _ := congrArg Account.told hacc
  have hretry := ha.retry
  refine ⟨⟨?_, ?_⟩, ?_, ?_, ?_, ?_⟩
  · rw [hretry]; exact he
  · rw [hretry]; exact h.earlier
  · rw [hretry]; exact h.within
  · rw [hretry]; exact ha
  · have habout : (Hook.methodStart context w.test.name).about w.test.name = true := by simp [Hook.about]
    rw [← List.count_filter habout, htold, hretry, ← h.taken]
    simp only [closed, opened, between, List.count_append, ha.method,
      count_told context w.test.name past fun x hx => (h.superseded x hx).1]
    simp
  · have hmem : Hook.methodEnd a a.retry (finalState a) ∈ s.hooks.filter (Hook.about w.test.name) := by
      rw [htold]
      exact List.mem_append.2 (Or.inr List.mem_cons_self)
    exact List.mem_of_mem_filter hmem

end Methods

/-! ## All methods -/

theorem Final.append {context : String} {m : UInt32} {outcome : UInt32 → Option Failure} {hooks : List Hook}
    {t : TestCase ω} {a : TestResult} (h : Final context m outcome hooks t a) :
    Final context m outcome (hooks ++ [.contextEnd context]) t a := by
  refine { h with executions := ?_, told := List.mem_append_left _ h.told }
  rw [List.count_append, h.executions]
  rfl

theorem ended_passed (st : ContextState) (native : NativeResults) :
    (st.ended native).2.passed = (st.ended native).1.passed := by
  by_cases h : st.handleNeeded = true
  · rw [ended_of_retried native h]; rfl
  · rw [ended_of_not_retried native h]

theorem ended_skipped (st : ContextState) (native : NativeResults) :
    (st.ended native).2.skipped = (st.ended native).1.skipped := by
  by_cases h : st.handleNeeded = true
  · rw [ended_of_retried native h]
  · rw [ended_of_not_retried native h]

section Contexts

variable {context : String} {m : UInt32} {tests : List (TestCase ω)} {outcome : TestCase ω → UInt32 → Option Failure}
  {s : Suite ω}

theorem finish_eq (h : Running context s.shared) :
    s.finish.1 = ((ledger s.shared).ended s.shared.native).1 ∧
      s.finish.2.hooks = s.shared.hooks ++ [.contextEnd context] ∧
      s.finish.2.coordinator.final? context = some ((ledger s.shared).ended s.shared.native).2 := by
  have hstarted : s.shared.coordinator.running.get? s.shared.native.context = some (ledger s.shared) := by
    rw [h.native]
    exact h.started
  unfold finish
  rw [contextEnd_eq hstarted, h.shared, h.native]
  refine ⟨rfl, rfl, ?_⟩
  simp only [Coordinator.final?, Keyed.get?_set, if_true]

/-- the last executions of all tests, with their trees, and the reports on them -/
theorem Sound.exists_ends (h : Sound context m tests outcome s) (hdone : ∀ w ∈ s.workers, Worker.isDone w = true) :
    ∃ ends : List (TestResult × List Node),
      List.Forall₂ (fun t x => Final context m (outcome t) s.shared.hooks t x.1 ∧ Remains s.shared t.name [x.1])
        tests ends ∧
      s.methodReports = .ok (ends.map fun x => reportOn x.1 x.2) := by
  have hworkers : ∃ ends : List (TestResult × List Node),
      List.Forall₂ (fun w x => (Final context m (outcome w.test) s.shared.hooks w.test x.1 ∧
        Remains s.shared w.test.name [x.1]) ∧ reportOf w = .ok (reportOn x.1 x.2)) s.workers ends := by
    refine exists_forall₂ fun w hw => ?_
    obtain ⟨i, hi⟩ := List.getElem?_of_mem hw
    obtain ⟨past, hfits⟩ := h.fits i w hi
    obtain ⟨a, steps, hphase, ha, he, hacc⟩ := hfits.done (hdone w hw)
    exact ⟨⟨a, steps⟩, ⟨hfits.final hacc ha he, hfits.remains hacc ha⟩, reportOf_eq_ok_iff.2 hphase⟩
  obtain ⟨ends, hends⟩ := hworkers
  refine ⟨ends, ?_, ?_⟩
  · rw [← h.workers]
    exact List.forall₂_map_left_iff.2 (hends.imp fun w x hx => hx.1)
  · exact methodReports_eq_ok_iff.2 (List.forall₂_map_right_iff.2 (hends.imp fun w x hx => hx.2))

/-- what is left of any method are the final results of that method -/
theorem Sound.remains (h : Sound context m tests outcome s) (hnames : (tests.map TestCase.name).Nodup)
    {finals : List TestResult}
    (hfinals : List.Forall₂ (fun t a => a.method = t.name ∧ Remains s.shared t.name [a]) tests finals)
    (method : String) : Remains s.shared method (finals.filter (TestResult.about method)) := by
  have hboth : List.Forall₂ (fun a (t : TestCase ω) => Remains s.shared a.method [a] ∧ a.method = t.name)
      finals tests :=
    hfinals.flip.imp fun a t (hat : a.method = t.name ∧ _) => ⟨hat.1 ▸ hat.2, hat.1⟩
  obtain ⟨hends, hnamed⟩ := (List.forall₂_and_left finals tests).1 hboth
  have hmethods : List.Forall₂ (· = ·) (finals.map TestResult.method) (tests.map TestCase.name) :=
    List.forall₂_map_left_iff.2 (List.forall₂_map_right_iff.2 hnamed)
  rw [List.forall₂_eq_eq_eq] at hmethods
  by_cases hm : method ∈ tests.map TestCase.name
  · rw [← hmethods] at hm hnames
    obtain ⟨a, ha, rfl⟩ := List.mem_map.1 hm
    rw [filter_about_of_mem hnames ha]
    exact hends a ha
  · have hnone : finals.filter (TestResult.about method) = [] := by
      refine List.filter_eq_nil_iff.2 fun a ha hab => hm ?_
      rw [← hmethods, ← TestResult.about_eq_true.1 hab]
      exact List.mem_map_of_mem ha
    rw [hnone]
    exact remains_of_empty (h.others method hm)

end Contexts

theorem filter_filter_comm (p q : TestResult → Bool) (rs : List TestResult) :
    (rs.filter p).filter q = (rs.filter q).filter p := by
  rw [List.filter_filter, List.filter_filter]
  simp only [Bool.and_comm]

/-- what is left of all methods together -/
theorem left_of_remains {s : Shared ω} {finals : List TestResult}
    (h : ∀ method, Remains s method (finals.filter (TestResult.about method))) :
    ((ledger s).ended s.native).1.passed.results.Perm (finals.filter (TestResult.has .success)) ∧
      ((ledger s).ended s.native).1.failed.results.Perm (finals.filter (TestResult.has .failure)) ∧
      ((ledger s).ended s.native).1.skipped.results = [] ∧
      ((ledger s).ended s.native).2.failed.results.Perm (finals.filter (TestResult.has .failure)) := by
  refine ⟨?_, ?_, ?_, ?_⟩
  · exact perm_of_filter_about fun method => (h method).passed.trans (filter_filter_comm _ _ _)
  · exact perm_of_filter_about fun method => (h method).failed.trans (filter_filter_comm _ _ _)
  · refine List.eq_nil_iff_forall_not_mem.2 fun r hr => ?_
    have hmem := ResultMap.mem_ofMethod.2 ⟨hr, rfl⟩
    rw [(h r.method).skipped] at hmem
    exact List.not_mem_nil hmem
  · exact perm_of_filter_about fun method => (h method).recorded.trans (filter_filter_comm _ _ _)

/-- the number of executions that a report shows is the number of executions -/
theorem attempts_reportOn (hfits : 2 * m.toNat < Word.limit32) {a : TestResult} (ha : a.retry ≤ m) (steps : List Node) :
    (reportOn a steps).attempts.toNat = a.retry.toNat + 1 := by
  have hle := UInt32.le_iff_toNat_le.1 ha
  have hone : (1 : UInt32).toNat = 1 := rfl
  have hlimit : Word.limit32 = 2 ^ 32 := rfl
  unfold reportOn
  rw [UInt32.toNat_add, hone]
  exact Nat.mod_eq_of_lt (by omega)

/-- **The outcome of a context does not depend on the schedule.** Tests of different names run side by side, each with
an outcome that depends on its retry number alone, with any timestamps, and with any coordinator that starts the
context. Let twice the maximum of retries fit 32 bits. Whatever turns the workers take, they come to an end when each gets
enough of them. When all have come to an end, one result per test remains, that of its last execution: it is among the
passed results or the failed ones, for the runner and for the coordinator alike, nothing remains skipped, and the reports
say the same, with the number of executions.

If twice the maximum does not fit, no worker makes a step, and in place of the reports there is the crash. -/
theorem final_outcomes_under_any_schedule (c : Coordinator) (context : String) (m : UInt32) (tests : List (TestCase ω))
    (world : ω) (outcome : TestCase ω → UInt32 → Option Failure) (hnames : (tests.map TestCase.name).Nodup)
    (hreturns : ∀ t ∈ tests, t.Returns (outcome t)) (schedule : List Nat) :
    let s := (startWith c context m tests world).run schedule
    (2 * m.toNat < Word.limit32 →
      ((∀ i < tests.length, 5 * (m.toNat + 1) ≤ schedule.count i) → ∀ w ∈ s.workers, Worker.isDone w = true) ∧
      ((∀ w ∈ s.workers, Worker.isDone w = true) →
        ∃ (finals : List TestResult) (reports : List MethodReport) (state : ContextState),
          List.Forall₂ (fun t a => Final context m (outcome t) s.finish.2.hooks t a) tests finals ∧
          s.methodReports = .ok reports ∧
          List.Forall₂ (fun a (r : MethodReport) => r = reportOn a r.steps ∧ r.attempts.toNat = a.retry.toNat + 1)
            finals reports ∧
          s.finish.1.passed.results.Perm (finals.filter (TestResult.has .success)) ∧
          s.finish.1.failed.results.Perm (finals.filter (TestResult.has .failure)) ∧
          s.finish.1.skipped.results = [] ∧
          s.finish.2.coordinator.final? context = some state ∧
          state.passed.results.Perm s.finish.1.passed.results ∧
          state.failed.results.Perm s.finish.1.failed.results ∧
          state.skipped.results = [])) ∧
    (Word.limit32 ≤ 2 * m.toNat →
      s = startWith c context m tests world ∧ (tests ≠ [] → s.methodReports = .error .budgetOverflow)) := by
  refine ⟨fun hfits => ?_, fun hlarge => ?_⟩
  swap
  · have hnone := Budget.ofMax?_eq_none_iff.2 hlarge
    rw [run_startWith_of_none hnone]
    exact ⟨rfl, methodReports_startWith_of_none hnone c world⟩
  obtain ⟨fresh, hfresh⟩ := Budget.exists_ofMax? hfits
  have hturns : stepsNeeded fresh = 5 * (m.toNat + 1) := by
    unfold stepsNeeded
    rw [(Budget.fresh_of_ofMax? hfresh).2]
  refine ⟨fun h => run_done hfresh hnames hreturns c world schedule (hturns ▸ h), ?_⟩
  have hsound := run_sound hnames hreturns (startWith_sound hfresh c context tests world outcome) schedule
  generalize (startWith c context m tests world).run schedule = s at hsound
  intro hdone
  obtain ⟨hnative, hhooks, hstate⟩ := finish_eq hsound.running
  obtain ⟨ends, htests, hreports⟩ := hsound.exists_ends hdone
  have hfinals : List.Forall₂ (fun t a => a.method = t.name ∧ Remains s.shared t.name [a]) tests (ends.map Prod.fst) :=
    List.forall₂_map_right_iff.2 (htests.imp fun t x hx => ⟨hx.1.attempt.method, hx.2⟩)
  obtain ⟨hpassed, hfailed, hskipped, hrecorded⟩ := left_of_remains (hsound.remains hnames hfinals)
  have hattempts : ∀ x ∈ ends, (reportOn x.1 x.2).attempts.toNat = x.1.retry.toNat + 1 := by
    intro x hx
    obtain ⟨t, -, hlast, -⟩ := exists_of_mem_forall₂ htests hx
    exact attempts_reportOn hfits hlast.within x.2
  rw [hnative]
  refine ⟨ends.map Prod.fst, ends.map fun x => reportOn x.1 x.2, _, ?_, hreports, ?_, hpassed, hfailed, hskipped,
    hstate, ?_, hrecorded.trans hfailed.symm, ?_⟩
  · rw [hhooks]
    exact List.forall₂_map_right_iff.2 (htests.imp fun t x hx => hx.1.append)
  · exact List.forall₂_map_left_iff.2 (List.forall₂_map_right_iff.2 (List.forall₂_same.2 fun x hx =>
      ⟨rfl, hattempts x hx⟩))
  · rw [ended_passed]
  · rw [ended_skipped, hskipped]

/-- fails on its first execution only; all its executions end in the same millisecond -/
def flakyLogin : TestCase Unit :=
  ⟨"login", fun retry world => (.ok ⟨if retry = 0 then some ⟨.stale, "row"⟩ else none, [], 7, 7⟩, world)⟩

/-- fails for good -/
def brokenPayment : TestCase Unit := ⟨"pay", fun _ world => (.ok ⟨some ⟨.assertion, "total"⟩, [], 7, 7⟩, world)⟩

/-- two tests whose workers take turns: both come to an end, and no skip remains of the execution that was retried -/
theorem flaky_login_beside_broken_payment :
    let s := (startWith {} "shop" 1 [flakyLogin, brokenPayment] ()).run (List.replicate 10 [0, 1]).flatten
    (∀ w ∈ s.workers, Worker.isDone w = true) ∧ s.finish.1.skipped.results = [] := by
  have hreturns : ∀ t ∈ [flakyLogin, brokenPayment], t.Returns fun retry =>
      if t.name = "pay" then some ⟨.assertion, "total"⟩ else if retry = 0 then some ⟨.stale, "row"⟩ else none := by
    intro t ht retry world
    rcases List.mem_pair.1 ht with rfl | rfl
    · exact ⟨_, rfl, rfl⟩
    · exact ⟨_, rfl, rfl⟩
  obtain ⟨hdone, hends⟩ := (final_outcomes_under_any_schedule {} "shop" 1 [flakyLogin, brokenPayment] () _
    (by decide) hreturns (List.replicate 10 [0, 1]).flatten).1 (by decide)
  have hall := hdone (by decide)
  obtain ⟨_, _, _, _, _, _, _, _, hskipped, _⟩ := hends hall
  exact ⟨hall, hskipped⟩

/-- with this maximum nobody is executed, although the first execution of the payment would be its last -/
theorem no_execution_with_large_maximum :
    let s := (startWith {} "shop" 2147483648 [brokenPayment] ()).run (List.replicate 5 0)
    Ends 2147483648 (some ⟨.assertion, "total"⟩) 0 ∧ s.methodReports = .error .budgetOverflow ∧
      s.shared.hooks = [.contextStart "shop"] ∧ s.shared.native.failed.results = [] :=
  ⟨Or.inl (by decide), rfl, rfl, rfl⟩

end Suite

end TestTrail
