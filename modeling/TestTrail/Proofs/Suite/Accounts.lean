/-
What the shared state of a suite holds of one method.

The runner's three maps, the failures that the coordinator recorded as final, and the log of what the coordinator was
told hold the results of all methods, in the order in which the workers happened to file them. An `Account` is the part
that one method has in them. Filing a result changes the account of its own method and no other, and since results of
one method differ in their retry numbers, it comes behind what is there, even when executions ended in the same
millisecond.
-/
import Mathlib.Tactic
import TestTrail.Proofs.Suite.Turns

namespace TestTrail

/-! ## Result maps, method by method -/

/-- the result is one of the method -/
def TestResult.about (method : String) (r : TestResult) : Bool := r.method == method

theorem TestResult.about_eq_true {method : String} {r : TestResult} : r.about method = true ↔ r.method = method :=
  beq_iff_eq

namespace ResultMap

/-- the results of one method -/
def ofMethod (m : ResultMap) (method : String) : List TestResult := m.results.filter (TestResult.about method)

theorem mem_ofMethod {m : ResultMap} {method : String} {r : TestResult} :
    r ∈ m.ofMethod method ↔ r ∈ m.results ∧ r.method = method := by
  rw [ofMethod, List.mem_filter, TestResult.about_eq_true]

theorem filter_addTo_other {result : TestResult} {method : String} (h : result.method ≠ method)
    (rs : List TestResult) :
    (addTo result rs).filter (TestResult.about method) = rs.filter (TestResult.about method) := by
  have hresult : ¬ result.about method = true := mt TestResult.about_eq_true.1 h
  induction rs with
  | nil => rw [addTo, List.filter_cons_of_neg hresult]
  | cons r rs ih =>
    rw [addTo]
    split
    · -- the result that is replaced has the same method
      rename_i hk
      have hm : r.method = result.method := congrArg ResultKey.method hk
      have hr : ¬ r.about method = true := mt TestResult.about_eq_true.1 (hm ▸ h)
      rw [List.filter_cons_of_neg hresult, List.filter_cons_of_neg hr]
    · rw [List.filter_cons, List.filter_cons, ih]

theorem ofMethod_add_other (m : ResultMap) {result : TestResult} {method : String} (h : result.method ≠ method) :
    (m.add result).ofMethod method = m.ofMethod method := filter_addTo_other h m.results

/-- a result with a new retry number comes behind those of its method -/
theorem ofMethod_add_own (m : ResultMap) {result : TestResult} {method : String} (hm : result.method = method)
    (h : ∀ r ∈ m.ofMethod method, r.retry ≠ result.retry) :
    (m.add result).ofMethod method = m.ofMethod method ++ [result] := by
  have hnew : ∀ r ∈ m.results, r.key ≠ result.key := by
    intro r hr hk
    have hmethod : r.method = method := (congrArg ResultKey.method hk).trans hm
    exact h r (mem_ofMethod.2 ⟨hr, hmethod⟩) (congrArg ResultKey.retry hk)
  have hown : result.about method = true := TestResult.about_eq_true.2 hm
  unfold ofMethod add
  rw [addTo_of_new result m.results hnew, List.filter_append, List.filter_cons_of_pos hown, List.filter_nil]

theorem containsMethod_iff {m : ResultMap} {method : String} :
    m.containsMethod method = true ↔ ∃ r, r ∈ m.ofMethod method := by
  simp only [containsMethod, List.any_eq_true, beq_iff_eq, mem_ofMethod]

/-- a key names its method, so it is found among the results of that method -/
theorem containsKey_iff {m : ResultMap} {key : ResultKey} :
    m.containsKey key = true ↔ ∃ r ∈ m.ofMethod key.method, r.key = key := by
  simp only [containsKey, List.any_eq_true, beq_iff_eq, mem_ofMethod]
  constructor
  · rintro ⟨r, hr, hk⟩
    exact ⟨r, ⟨hr, congrArg ResultKey.method hk⟩, hk⟩
  · rintro ⟨r, ⟨hr, _⟩, hk⟩
    exact ⟨r, hr, hk⟩

theorem ofMethod_retain (m : ResultMap) (keep : TestResult → Bool) (method : String) :
    (m.retain keep).1.ofMethod method = (m.ofMethod method).filter keep := by
  unfold retain ofMethod
  rw [List.filter_filter, List.filter_filter]
  simp only [Bool.and_comm]

end ResultMap

/-! ## Accounts -/

/-- the hook is about an execution of the method -/
def Hook.about (method : String) : Hook → Bool
  | contextStart _ => false
  | methodStart _ m => m == method
  | methodEnd r _ _ => r.method == method
  | contextEnd _ => false

@[ext]
structure Account where
  passed : List TestResult := []
  failed : List TestResult := []
  skipped : List TestResult := []
  /-- failures that the coordinator recorded as final -/
  recorded : List TestResult := []
  /-- what the coordinator was told -/
  told : List Hook := []

/-- the account when the coordinator has judged an execution -/
def Account.judged (acc : Account) (result : TestResult) (state : MethodState) (count : UInt32) : Account :=
  { acc with
    recorded := if state = .failedFinal then acc.recorded ++ [result] else acc.recorded
    told := acc.told ++ [.methodEnd result count state] }

/-- the account when an outcome has been filed -/
def Account.settled (acc : Account) (result : TestResult) : Account :=
  match result.status with
  | .success => { acc with passed := acc.passed ++ [result] }
  | .skip => { acc with skipped := acc.skipped ++ [result] }
  | .failure => acc

namespace Suite

variable {ω : Type}

/-- what the coordinator knows of the context -/
def ledger (s : Shared ω) : ContextState := s.coordinator.stateOf s.context

def account (s : Shared ω) (method : String) : Account :=
  { passed := s.native.passed.ofMethod method
    failed := s.native.failed.ofMethod method
    skipped := s.native.skipped.ofMethod method
    recorded := (ledger s).failed.ofMethod method
    told := s.hooks.filter (Hook.about method) }

/-- something was retried in the context -/
def retried (s : Shared ω) : Bool := (ledger s).handleNeeded

theorem filter_append_about {method : String} (hooks : List Hook) {h : Hook} (ha : h.about method = true) :
    (hooks ++ [h]).filter (Hook.about method) = hooks.filter (Hook.about method) ++ [h] := by
  rw [List.filter_append, List.filter_cons_of_pos ha, List.filter_nil]

theorem filter_append_not_about {method : String} (hooks : List Hook) {h : Hook} (ha : ¬ h.about method = true) :
    (hooks ++ [h]).filter (Hook.about method) = hooks.filter (Hook.about method) := by
  rw [List.filter_append, List.filter_cons_of_neg ha, List.filter_nil, List.append_nil]

/-! ## What the steps of workers do to the shared state -/

/-- a method has been announced -/
def announce (s : Shared ω) (method : String) : Shared ω :=
  { s with
    coordinator := s.coordinator.methodStart s.context method
    hooks := s.hooks ++ [.methodStart s.context method] }

/-- a failure has been filed with the runner -/
def fileFailure (s : Shared ω) (result : TestResult) : Shared ω :=
  { s with native := { s.native with failed := s.native.failed.add result } }

/-- the coordinator has been told of an end, after `count` retries -/
def conclude (s : Shared ω) (result : TestResult) (willRetry : Bool) (count : UInt32) : Shared ω :=
  let judged := ContextState.judge result willRetry
  { s with
    coordinator := (s.coordinator.methodEnd result willRetry).2
    hooks := s.hooks ++ [.methodEnd judged.1 count judged.2] }

/-- an outcome has been filed with the runner -/
def settle (s : Shared ω) (result : TestResult) : Shared ω := { s with native := fileOutcome s.native result }

theorem advance_starting (test : TestCase ω) (b : Budget) (retry : UInt32) (s : Shared ω) :
    advance ⟨test, b, retry, .starting⟩ s = (⟨test, b, retry, .executing⟩, announce s test.name) := rfl

theorem advance_filingFailure (test : TestCase ω) (b : Budget) (retry : UInt32) (s : Shared ω) (result : TestResult)
    (steps : List Node) :
    advance ⟨test, b, retry, .filingFailure result steps⟩ s =
      (⟨test, b, retry, .ending result steps⟩, fileFailure s result) := rfl

theorem advance_ending (test : TestCase ω) (b : Budget) (retry : UInt32) (s : Shared ω) (result : TestResult)
    (steps : List Node) :
    advance ⟨test, b, retry, .ending result steps⟩ s =
      (⟨test, b, retry, .filingOutcome (ContextState.judge result (b.grants result)).1
          (ContextState.judge result (b.grants result)).2 steps⟩, conclude s result (b.grants result) b.count) := rfl

theorem advance_filingOutcome (test : TestCase ω) (b : Budget) (retry : UInt32) (s : Shared ω) (result : TestResult)
    (state : MethodState) (steps : List Node) :
    advance ⟨test, b, retry, .filingOutcome result state steps⟩ s =
      (afterOutcome ⟨test, b, retry, .filingOutcome result state steps⟩ result state steps, settle s result) := rfl

theorem ledger_announce (s : Shared ω) (method : String) :
    ledger (announce s method) = (ledger s).methodStarted method := by
  simp only [ledger, announce, Coordinator.methodStart, Coordinator.stateOf, Keyed.get?_set, if_true, Option.getD_some]

theorem ledger_conclude (s : Shared ω) (result : TestResult) (willRetry : Bool) (count : UInt32)
    (hc : result.context = s.context) :
    ledger (conclude s result willRetry count) = (ledger s).methodEnded result willRetry := by
  simp only [ledger, conclude, Coordinator.methodEnd, Coordinator.stateOf, hc, Keyed.get?_set, if_true,
    Option.getD_some]

theorem retried_announce (s : Shared ω) (method : String) : retried (announce s method) = retried s := by
  unfold retried
  rw [ledger_announce]
  rfl

theorem retried_conclude (s : Shared ω) (result : TestResult) (willRetry : Bool) (count : UInt32)
    (hc : result.context = s.context) :
    retried (conclude s result willRetry count) =
      (retried s || (ContextState.judge result willRetry).2 == .failedRetrying) := by
  unfold retried
  rw [ledger_conclude s result willRetry count hc]
  rfl

/-! ## Accounts of the method itself -/

theorem account_announce_own (s : Shared ω) (method : String) :
    account (announce s method) method =
      { account s method with told := (account s method).told ++ [.methodStart s.context method] } := by
  have ha : (Hook.methodStart s.context method).about method = true := by simp [Hook.about]
  unfold account
  rw [ledger_announce]
  simp only [announce, filter_append_about _ ha]
  rfl

theorem account_fileFailure_own (s : Shared ω) (result : TestResult) {method : String} (hm : result.method = method)
    (h : ∀ r ∈ (account s method).failed, r.retry ≠ result.retry) :
    account (fileFailure s result) method =
      { account s method with failed := (account s method).failed ++ [result] } := by
  have hadd := s.native.failed.ofMethod_add_own hm h
  unfold account fileFailure
  simp only [hadd]
  rfl

theorem judge_method (result : TestResult) (willRetry : Bool) :
    (ContextState.judge result willRetry).1.method = result.method := by
  unfold ContextState.judge
  cases result.status with
  | failure => cases willRetry <;> rfl
  | _ => rfl

theorem account_conclude_own (s : Shared ω) (result : TestResult) (willRetry : Bool) (count : UInt32)
    {method : String} (hm : result.method = method) (hc : result.context = s.context)
    (h : ∀ r ∈ (account s method).recorded, r.retry ≠ result.retry) :
    account (conclude s result willRetry count) method =
      (account s method).judged (ContextState.judge result willRetry).1 (ContextState.judge result willRetry).2
        count := by
  have hjudged := (judge_method result willRetry).trans hm
  have ha : (Hook.methodEnd (ContextState.judge result willRetry).1 count
      (ContextState.judge result willRetry).2).about method = true := by
    simpa [Hook.about] using hjudged
  unfold account at *
  rw [ledger_conclude s result willRetry count hc]
  simp only [conclude, filter_append_about _ ha, Account.judged, ContextState.methodEnded]
  simp only [beq_iff_eq]
  split
  · rw [ResultMap.ofMethod_add_own _ hjudged]
    intro r hr
    rw [judge_retry]
    exact h r hr
  · rfl

theorem account_settle_own (s : Shared ω) (result : TestResult) {method : String} (hm : result.method = method)
    (hp : ∀ r ∈ (account s method).passed, r.retry ≠ result.retry)
    (hk : ∀ r ∈ (account s method).skipped, r.retry ≠ result.retry) :
    account (settle s result) method = (account s method).settled result := by
  have hpassed := s.native.passed.ofMethod_add_own hm hp
  have hskipped := s.native.skipped.ofMethod_add_own hm hk
  unfold account settle fileOutcome Account.settled
  cases result.status with
  | success => simp only [hpassed]; rfl
  | skip => simp only [hskipped]; rfl
  | failure => rfl

/-! ## Accounts of the others -/

/-- for the method nothing has changed but that more may have been retried in the context -/
structure Untouched (method : String) (s t : Shared ω) : Prop where
  context : t.context = s.context
  account : account t method = account s method
  retried : retried s = true → retried t = true

theorem untouched_announce (s : Shared ω) {own method : String} (h : own ≠ method) :
    Untouched method s (announce s own) := by
  have ha : ¬ (Hook.methodStart s.context own).about method = true := by simpa [Hook.about] using h
  refine ⟨rfl, ?_, ?_⟩
  · unfold Suite.account
    rw [ledger_announce]
    simp only [announce, filter_append_not_about _ ha]
    rfl
  · rw [retried_announce]
    exact id

theorem untouched_fileFailure (s : Shared ω) (result : TestResult) {method : String} (h : result.method ≠ method) :
    Untouched method s (fileFailure s result) := by
  refine ⟨rfl, ?_, id⟩
  unfold Suite.account fileFailure
  simp only [ResultMap.ofMethod_add_other _ h]
  rfl

theorem untouched_conclude (s : Shared ω) (result : TestResult) (willRetry : Bool) (count : UInt32)
    (hc : result.context = s.context) {method : String} (h : result.method ≠ method) :
    Untouched method s (conclude s result willRetry count) := by
  have hjudged : (ContextState.judge result willRetry).1.method ≠ method := by
    rw [judge_method]
    exact h
  have ha : ¬ (Hook.methodEnd (ContextState.judge result willRetry).1 count
      (ContextState.judge result willRetry).2).about method = true := by
    simpa [Hook.about] using hjudged
  refine ⟨rfl, ?_, fun hr => ?_⟩
  · unfold Suite.account
    rw [ledger_conclude s result willRetry count hc]
    simp only [conclude, filter_append_not_about _ ha, ContextState.methodEnded]
    split
    · rw [ResultMap.ofMethod_add_other _ hjudged]
    · rfl
  · rw [retried_conclude s result willRetry count hc, hr, Bool.true_or]

theorem untouched_settle (s : Shared ω) (result : TestResult) {method : String} (h : result.method ≠ method) :
    Untouched method s (settle s result) := by
  refine ⟨rfl, ?_, id⟩
  unfold Suite.account settle fileOutcome
  cases result.status with
  | success => simp only [ResultMap.ofMethod_add_other _ h]; rfl
  | skip => simp only [ResultMap.ofMethod_add_other _ h]; rfl
  | failure => rfl

end Suite

end TestTrail
