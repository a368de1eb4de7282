/-
One worker of a suite, whatever the others do.

The executions of a test end in ways that depend on the retry number (`TestCase.Returns`). The last one is the first
that succeeds, or fails for good, or has no retry left (`LastRetry`). `Stage` says for each phase of a worker what the
shared state holds of its method: the earlier executions, all of them failures that were filed with the runner and
hidden as skips, and of the present one what has been filed so far. `advance_fits` is the step lemma: a step of the
worker goes from stage to stage, and since a step of another worker leaves the account alone, `Fits.untouched` carries
it over those.
-/
import TestTrail.Proofs.Suite.Accounts

namespace TestTrail

/-- the body returns whenever it is executed, with an outcome that depends on the retry number alone -/
def TestCase.Returns {ω : Type} (t : TestCase ω) (outcome : UInt32 → Option Failure) : Prop :=
  ∀ retry world, ∃ e, (t.execute retry world).1 = .ok e ∧ e.failure = outcome retry

namespace Suite

variable {ω : Type}

/-! ## The last execution -/

/-- with this outcome at this retry number, of at most `m`, a test is not executed again -/
def Ends (m : UInt32) (outcome : Option Failure) (retry : UInt32) : Prop :=
  match outcome with
  | none => True
  | some f => f.kind ∈ [.assertion, .application, .gridNodeUnavailable] ∨ retry = m

/-- the least retry number with which a test is not executed again -/
structure LastRetry (m : UInt32) (outcome : UInt32 → Option Failure) (retry : UInt32) : Prop where
  ends : Ends m (outcome retry) retry
  earlier : ∀ k < retry, ¬ Ends m (outcome k) k

theorem ends_none {m : UInt32} {outcome : Option Failure} (h : outcome = none) (retry : UInt32) :
    Ends m outcome retry := by
  rw [h]
  trivial

theorem mayMend_recorded (f : Failure) :
    Budget.mayMend (some f.recorded) =
      !decide (f.kind ∈ [FailureKind.assertion, .application, .gridNodeUnavailable]) := by
  obtain ⟨kind, message⟩ := f
  cases kind <;> rfl

theorem le_of_lt_succ {j k m : UInt32} (h : k < m) (hj : j < k + 1) : j < k ∨ j = k := by
  have hlt := UInt32.lt_iff_toNat_lt.1 hj
  rw [Word.toNat_succ h] at hlt
  rcases Nat.lt_succ_iff_lt_or_eq.1 hlt with hlt | heq
  · exact Or.inl (UInt32.lt_iff_toNat_lt.2 hlt)
  · exact Or.inr (UInt32.toNat_inj.1 heq)

/-! ## Results of executions -/

/-- the result of an execution of the method with this retry number -/
structure Attempt (context method : String) (outcome : UInt32 → Option Failure) (k : UInt32) (a : TestResult) :
    Prop where
  method : a.method = method
  context : a.context = context
  retry : a.retry = k
  status : a.status = if (outcome k).isSome then .failure else .success
  error : a.error = (outcome k).map Failure.recorded
  repeatable : a.noMoreRetry = false

/-- a failure that will be retried, as it counts -/
def hidden (a : TestResult) : TestResult := { a with status := .skip }

/-- how the coordinator sees a method after its last execution -/
def finalState (a : TestResult) : MethodState := if a.status = .success then .passed else .failedFinal

section Results

variable {context method : String} {m : UInt32} {outcome : UInt32 → Option Failure} {retry : UInt32} {a : TestResult}
  {b : Budget}

theorem attempt_resultOf (context : String) (w : Worker ω) (e : Execution) (he : e.failure = outcome w.retry) :
    Attempt context w.test.name outcome w.retry (resultOf context w e) := by
  refine ⟨rfl, rfl, rfl, ?_, ?_, rfl⟩
  · rw [← he]; rfl
  · rw [← he]; rfl

theorem Attempt.status_cases (ha : Attempt context method outcome retry a) :
    (a.status = .success ∧ outcome retry = none) ∨ (a.status = .failure ∧ ∃ f, outcome retry = some f) := by
  have hs := ha.status
  cases ho : outcome retry with
  | none => rw [ho] at hs; exact Or.inl ⟨hs, rfl⟩
  | some f => rw [ho] at hs; exact Or.inr ⟨hs, f, rfl⟩

/-- a retry is granted unless the test ends with this execution -/
theorem grants_iff (hmax : b.max = m) (hcount : b.count = retry) (hle : retry ≤ m)
    (ha : Attempt context method outcome retry a) (hf : a.status = .failure) :
    b.grants a = true ↔ ¬ Ends m (outcome retry) retry := by
  have hlt : b.count < b.max ↔ retry ≠ m := by
    rw [hmax, hcount]
    constructor
    · intro h he
      exact absurd (he ▸ h) (UInt32.lt_irrefl m)
    · exact fun h => UInt32.lt_of_le_of_ne hle h
  rcases ha.status_cases with ⟨hs, _⟩ | ⟨_, f, ho⟩
  · rw [hs] at hf
    cases hf
  · have he : a.error = some f.recorded := by rw [ha.error, ho]; rfl
    simp only [Budget.grants, he, mayMend_recorded, ha.repeatable, Ends, ho, Bool.not_false, Bool.and_true,
      Bool.and_eq_true, Bool.not_eq_true', decide_eq_true_eq, decide_eq_false_iff_not, hlt, not_or, ne_eq]

theorem judge_of_ends (hmax : b.max = m) (hcount : b.count = retry) (hle : retry ≤ m)
    (ha : Attempt context method outcome retry a) (he : Ends m (outcome retry) retry) :
    ContextState.judge a (b.grants a) = (a, finalState a) := by
  unfold ContextState.judge finalState
  rcases ha.status_cases with ⟨hs, _⟩ | ⟨hs, _⟩
  · rw [hs]; rfl
  · have hg : b.grants a = false := by
      cases hg : b.grants a with
      | false => rfl
      | true => exact absurd he ((grants_iff hmax hcount hle ha hs).1 hg)
    rw [hs, hg]
    rfl

theorem status_of_not_ends (ha : Attempt context method outcome retry a) (he : ¬ Ends m (outcome retry) retry) :
    a.status = .failure := by
  rcases ha.status_cases with ⟨_, ho⟩ | ⟨hs, _⟩
  · exact absurd (ends_none ho retry) he
  · exact hs

theorem judge_of_not_ends (hmax : b.max = m) (hcount : b.count = retry) (hle : retry ≤ m)
    (ha : Attempt context method outcome retry a) (he : ¬ Ends m (outcome retry) retry) :
    ContextState.judge a (b.grants a) = (hidden a, .failedRetrying) := by
  have hs := status_of_not_ends ha he
  unfold ContextState.judge
  rw [hs, (grants_iff hmax hcount hle ha hs).2 he]
  rfl

/-- the retry that was promised can be taken from the budget -/
theorem take_of_not_ends (hmax : b.max = m) (hcount : b.count = retry) (hle : retry ≤ m)
    (ha : Attempt context method outcome retry a) (he : ¬ Ends m (outcome retry) retry) :
    b.take (hidden a) = (true, { b with count := b.count + 1 }) := by
  have hg : b.grants (hidden a) = true := (grants_iff hmax hcount hle ha (status_of_not_ends ha he)).2 he
  unfold Budget.take
  rw [if_pos hg]

end Results

/-! ## Stages -/

/-- what the coordinator is told of an execution that is retried -/
def retriedHooks (context : String) (a : TestResult) : List Hook :=
  [.methodStart context a.method, .methodEnd (hidden a) a.retry .failedRetrying]

/-- the account between two executions, when all so far are retried -/
def between (context : String) (past : List TestResult) : Account :=
  { failed := past, skipped := past.map hidden, told := past.flatMap (retriedHooks context) }

/-- the account while a further execution goes on -/
def opened (context method : String) (past : List TestResult) : Account :=
  { between context past with told := (between context past).told ++ [.methodStart context method] }

/-- the account after the last execution -/
def closed (context : String) (past : List TestResult) (a : TestResult) : Account :=
  { passed := if a.status = .success then [a] else []
    failed := if a.status = .success then past else past ++ [a]
    skipped := past.map hidden
    recorded := if a.status = .success then [] else [a]
    told := (opened context a.method past).told ++ [.methodEnd a a.retry (finalState a)] }

/-- what is reported of a test with this last execution -/
def reportOn (a : TestResult) (steps : List Node) : MethodReport :=
  { method := a.method, state := finalState a, status := a.status, attempts := a.retry + 1, error := a.error
    steps := steps }

/-- the account `acc` of a method whose worker has come to a phase of execution `retry`, after the executions `past`;
`again` says that something was retried in the context -/
inductive Stage (context method : String) (m : UInt32) (outcome : UInt32 → Option Failure) (retry : UInt32)
    (past : List TestResult) (again : Bool) (acc : Account) : Phase → Prop
  | starting (hacc : acc = between context past) : Stage context method m outcome retry past again acc .starting
  | executing (hacc : acc = opened context method past) : Stage context method m outcome retry past again acc .executing
  | filingFailure (a : TestResult) (steps : List Node) (ha : Attempt context method outcome retry a)
      (hf : a.status = .failure) (hacc : acc = opened context method past) :
      Stage context method m outcome retry past again acc (.filingFailure a steps)
  | ending (a : TestResult) (steps : List Node) (ha : Attempt context method outcome retry a)
      (hacc : acc =
        { opened context method past with failed := if a.status = .success then past else past ++ [a] }) :
      Stage context method m outcome retry past again acc (.ending a steps)
  | retrying (a : TestResult) (steps : List Node) (ha : Attempt context method outcome retry a)
      (he : ¬ Ends m (outcome retry) retry) (hagain : again = true)
      (hacc : acc = { between context (past ++ [a]) with skipped := past.map hidden }) :
      Stage context method m outcome retry past again acc (.filingOutcome (hidden a) .failedRetrying steps)
  | finishing (a : TestResult) (steps : List Node) (ha : Attempt context method outcome retry a)
      (he : Ends m (outcome retry) retry) (hacc : acc = { closed context past a with passed := [] }) :
      Stage context method m outcome retry past again acc (.filingOutcome a (finalState a) steps)
  | done (a : TestResult) (steps : List Node) (ha : Attempt context method outcome retry a)
      (he : Ends m (outcome retry) retry) (hacc : acc = closed context past a) :
      Stage context method m outcome retry past again acc (.done (reportOn a steps))

/-- the worker and the shared state fit together, with the earlier executions of its test -/
structure Fits (context : String) (m : UInt32) (outcome : UInt32 → Option Failure) (s : Shared ω) (w : Worker ω)
    (past : List TestResult) : Prop where
  max : w.budget.max = m
  count : w.budget.count = w.retry
  within : w.retry ≤ m
  taken : past.length = w.retry.toNat
  superseded : ∀ a ∈ past, a.method = w.test.name ∧ a.retry < w.retry
  earlier : ∀ k < w.retry, ¬ Ends m (outcome k) k
  again : past ≠ [] → retried s = true
  stage : Stage context w.test.name m outcome w.retry past (retried s) (account s w.test.name) w.phase

section Steps

variable {context : String} {m : UInt32} {outcome : UInt32 → Option Failure} {s t : Shared ω} {w : Worker ω}
  {past : List TestResult}

theorem Stage.again {method : String} {retry : UInt32} {before after : Bool} {acc : Account} {p : Phase}
    (hagain : before = true → after = true) (h : Stage context method m outcome retry past before acc p) :
    Stage context method m outcome retry past after acc p := by
  cases h with
  | starting hacc => exact .starting hacc
  | executing hacc => exact .executing hacc
  | filingFailure a steps ha hf hacc => exact .filingFailure a steps ha hf hacc
  | ending a steps ha hacc => exact .ending a steps ha hacc
  | retrying a steps ha he hb hacc => exact .retrying a steps ha he (hagain hb) hacc
  | finishing a steps ha he hacc => exact .finishing a steps ha he hacc
  | done a steps ha he hacc => exact .done a steps ha he hacc

/-- a step that leaves the method alone leaves its worker where it is -/
theorem Fits.untouched (h : Fits context m outcome s w past) (hu : Untouched w.test.name s t) :
    Fits context m outcome t w past := by
  refine { h with again := fun hp => hu.retried (h.again hp), stage := ?_ }
  rw [hu.account]
  exact h.stage.again hu.retried

/-- a number above those of the earlier executions is new among them -/
theorem Fits.fresh (h : Fits context m outcome s w past) {r : TestResult} (hr : r ∈ past) {a : TestResult}
    (ha : a.retry = w.retry) : r.retry ≠ a.retry := by
  intro heq
  have hlt := (h.superseded r hr).2
  rw [heq, ha] at hlt
  exact UInt32.lt_irrefl _ hlt

theorem Fits.fresh_hidden (h : Fits context m outcome s w past) {r : TestResult} (hr : r ∈ past.map hidden)
    {a : TestResult} (ha : a.retry = w.retry) : r.retry ≠ a.retry := by
  obtain ⟨x, hx, rfl⟩ := List.mem_map.1 hr
  exact h.fresh hx ha

variable {test : TestCase ω} {b : Budget} {retry : UInt32}

theorem fits_announce (h : Fits context m outcome s ⟨test, b, retry, .starting⟩ past) (hc : s.context = context)
    (hacc : account s test.name = between context past) :
    Fits context m outcome (announce s test.name) ⟨test, b, retry, .executing⟩ past := by
  refine { h with again := fun hp => ?_, stage := .executing ?_ }
  · rw [retried_announce]
    exact h.again hp
  · rw [account_announce_own, hacc, hc]
    rfl

/-- the world does not matter, so the account after an execution is that before it -/
theorem fits_execute (h : Fits context m outcome s ⟨test, b, retry, .executing⟩ past) (hc : s.context = context)
    (hacc : account s test.name = opened context test.name past) (ht : test.Returns outcome) :
    Fits context m outcome (advance ⟨test, b, retry, .executing⟩ s).2 (advance ⟨test, b, retry, .executing⟩ s).1
      past := by
  subst hc
  obtain ⟨e, he, hout⟩ := ht retry s.world
  have ha := attempt_resultOf s.context ⟨test, b, retry, .executing⟩ e hout
  have hadv : advance ⟨test, b, retry, .executing⟩ s =
      (⟨test, b, retry,
        if e.failure.isSome then .filingFailure (resultOf s.context ⟨test, b, retry, .executing⟩ e) e.steps
        else .ending (resultOf s.context ⟨test, b, retry, .executing⟩ e) e.steps⟩,
        { s with world := (test.execute retry s.world).2 }) := by
    simp only [advance]
    rcases hx : test.execute retry s.world with ⟨x, world⟩
    rw [hx] at he
    cases he
    rfl
  rw [hadv]
  cases hf : e.failure with
  | none =>
    refine { h with stage := .ending _ _ ha ?_ }
    refine Eq.trans hacc ?_
    simp only [resultOf, hf]
    rfl
  | some f =>
    refine { h with stage := .filingFailure _ _ ha ?_ hacc }
    simp only [resultOf, hf]
    rfl

theorem fits_fileFailure {a : TestResult} {steps : List Node}
    (h : Fits context m outcome s ⟨test, b, retry, .filingFailure a steps⟩ past)
    (ha : Attempt context test.name outcome retry a) (hf : a.status = .failure)
    (hacc : account s test.name = opened context test.name past) :
    Fits context m outcome (fileFailure s a) ⟨test, b, retry, .ending a steps⟩ past := by
  refine { h with stage := .ending a steps ha ?_ }
  have hnew : ∀ r ∈ (account s test.name).failed, r.retry ≠ a.retry := by
    rw [hacc]
    exact fun r hr => h.fresh hr ha.retry
  rw [account_fileFailure_own s a ha.method hnew, hacc, hf]
  rfl

theorem fits_conclude {a : TestResult} {steps : List Node}
    (h : Fits context m outcome s ⟨test, b, retry, .ending a steps⟩ past) (hc : s.context = context)
    (ha : Attempt context test.name outcome retry a)
    (hacc : account s test.name =
      { opened context test.name past with failed := if a.status = .success then past else past ++ [a] }) :
    Fits context m outcome (conclude s a (b.grants a) b.count)
      ⟨test, b, retry, .filingOutcome (ContextState.judge a (b.grants a)).1 (ContextState.judge a (b.grants a)).2 steps⟩
      past := by
  have hcontext : a.context = s.context := ha.context.trans hc.symm
  have hnew : ∀ r ∈ (account s test.name).recorded, r.retry ≠ a.retry := by
    rw [hacc]
    exact fun r hr => absurd hr (List.not_mem_nil)
  have hcount : b.count = a.retry := h.count.trans ha.retry.symm
  have hconclude := account_conclude_own s a (b.grants a) b.count ha.method hcontext hnew
  have hretried := retried_conclude s a (b.grants a) b.count hcontext
  have hagain : past ≠ [] → retried (conclude s a (b.grants a) b.count) = true := by
    intro hp
    rw [hretried, h.again hp, Bool.true_or]
  by_cases he : Ends m (outcome retry) retry
  · have hjudge := judge_of_ends h.max h.count h.within ha he
    rw [hjudge] at hconclude ⊢
    refine { h with again := hagain, stage := .finishing a steps ha he ?_ }
    refine hconclude.trans ?_
    rw [hacc, hcount, ← ha.method]
    rcases ha.status_cases with ⟨hs, _⟩ | ⟨hs, _⟩
    · simp [Account.judged, closed, opened, between, finalState, hs]
    · simp [Account.judged, closed, opened, between, finalState, hs]
  · have hjudge := judge_of_not_ends h.max h.count h.within ha he
    have hs := status_of_not_ends ha he
    rw [hjudge] at hconclude hretried ⊢
    refine { h with again := hagain, stage := .retrying a steps ha he ?_ ?_ }
    · rw [hretried]
      simp
    · refine hconclude.trans ?_
      rw [hacc, hcount, ← ha.method]
      simp [Account.judged, opened, between, hs, retriedHooks]

/-- the execution is retried: it joins the earlier ones, and the worker starts over with the next number -/
theorem fits_settle_hidden {a : TestResult} {steps : List Node}
    (h : Fits context m outcome s ⟨test, b, retry, .filingOutcome (hidden a) .failedRetrying steps⟩ past)
    (ha : Attempt context test.name outcome retry a) (he : ¬ Ends m (outcome retry) retry)
    (hagain : retried s = true)
    (hacc : account s test.name = { between context (past ++ [a]) with skipped := past.map hidden }) :
    Fits context m outcome (settle s (hidden a))
      (afterOutcome ⟨test, b, retry, .filingOutcome (hidden a) .failedRetrying steps⟩ (hidden a) .failedRetrying steps)
      (past ++ [a]) := by
  have hlt : retry < m := by
    refine UInt32.lt_of_le_of_ne h.within fun heq => he ?_
    unfold Ends
    split
    · trivial
    · exact Or.inr heq
  have hsucc := Word.toNat_succ hlt
  have hafter : afterOutcome ⟨test, b, retry, .filingOutcome (hidden a) .failedRetrying steps⟩ (hidden a)
      .failedRetrying steps = ⟨test, { b with count := b.count + 1 }, retry + 1, .starting⟩ := by
    simp only [afterOutcome, if_true, take_of_not_ends h.max h.count h.within ha he]
  have hpassed : ∀ r ∈ (account s test.name).passed, r.retry ≠ (hidden a).retry := by
    rw [hacc]
    exact fun r hr => absurd hr (List.not_mem_nil)
  have hskipped : ∀ r ∈ (account s test.name).skipped, r.retry ≠ (hidden a).retry := by
    rw [hacc]
    exact fun r hr => h.fresh_hidden hr ha.retry
  rw [hafter]
  refine ⟨h.max, ?_, ?_, ?_, ?_, ?_, fun _ => hagain, .starting ?_⟩
  · exact congrArg (· + 1) h.count
  · rw [UInt32.le_iff_toNat_le, hsucc]
    exact UInt32.lt_iff_toNat_lt.1 hlt
  · rw [List.length_append, h.taken, hsucc]
    rfl
  · intro r hr
    have hnext : retry < retry + 1 := by
      rw [UInt32.lt_iff_toNat_lt, hsucc]
      exact Nat.lt_succ_self _
    rcases List.mem_append.1 hr with hr | hr
    · exact ⟨(h.superseded r hr).1, UInt32.lt_trans (h.superseded r hr).2 hnext⟩
    · rw [List.mem_singleton.1 hr]
      exact ⟨ha.method, by rw [ha.retry]; exact hnext⟩
  · intro k hk
    rcases le_of_lt_succ hlt hk with hk | rfl
    · exact h.earlier k hk
    · exact he
  · rw [account_settle_own s (hidden a) ha.method hpassed hskipped, hacc]
    simp [Account.settled, between, hidden]

theorem fits_settle_final {a : TestResult} {steps : List Node}
    (h : Fits context m outcome s ⟨test, b, retry, .filingOutcome a (finalState a) steps⟩ past)
    (ha : Attempt context test.name outcome retry a) (he : Ends m (outcome retry) retry)
    (hacc : account s test.name = { closed context past a with passed := [] }) :
    Fits context m outcome (settle s a)
      (afterOutcome ⟨test, b, retry, .filingOutcome a (finalState a) steps⟩ a (finalState a) steps) past := by
  have hstate : finalState a ≠ .failedRetrying := by
    unfold finalState
    split
    · exact MethodState.noConfusion
    · exact MethodState.noConfusion
  have hafter : afterOutcome ⟨test, b, retry, .filingOutcome a (finalState a) steps⟩ a (finalState a) steps =
      ⟨test, b, retry, .done (reportOn a steps)⟩ := by
    simp only [afterOutcome, if_neg hstate, reportOn, ha.method, ha.retry]
  have hpassed : ∀ r ∈ (account s test.name).passed, r.retry ≠ a.retry := by
    rw [hacc]
    exact fun r hr => absurd hr (List.not_mem_nil)
  have hskipped : ∀ r ∈ (account s test.name).skipped, r.retry ≠ a.retry := by
    rw [hacc]
    exact fun r hr => h.fresh_hidden hr ha.retry
  rw [hafter]
  refine { h with stage := .done a steps ha he ?_ }
  rw [account_settle_own s a ha.method hpassed hskipped, hacc]
  rcases ha.status_cases with ⟨hs, _⟩ | ⟨hs, _⟩
  · simp [Account.settled, closed, hs]
  · simp [Account.settled, closed, hs]

/-- a step of a worker takes it from stage to stage -/
theorem advance_fits (h : Fits context m outcome s w past) (hc : s.context = context)
    (ht : w.test.Returns outcome) : ∃ past, Fits context m outcome (advance w s).2 (advance w s).1 past := by
  obtain ⟨test, b, retry, phase⟩ := w
  cases h.stage with
  | starting hacc =>
    rw [advance_starting]
    exact ⟨past, fits_announce h hc hacc⟩
  | executing hacc => exact ⟨past, fits_execute h hc hacc ht⟩
  | filingFailure a steps ha hf hacc =>
    rw [advance_filingFailure]
    exact ⟨past, fits_fileFailure h ha hf hacc⟩
  | ending a steps ha hacc =>
    rw [advance_ending]
    exact ⟨past, fits_conclude h hc ha hacc⟩
  | retrying a steps ha he hagain hacc =>
    rw [advance_filingOutcome]
    exact ⟨past ++ [a], fits_settle_hidden h ha he hagain hacc⟩
  | finishing a steps ha he hacc =>
    rw [advance_filingOutcome]
    exact ⟨past, fits_settle_final h ha he hacc⟩
  | done a steps ha he hacc => exact ⟨past, h⟩

/-- and it leaves the other methods alone -/
theorem advance_untouched (h : Fits context m outcome s w past) (hc : s.context = context)
    (ht : w.test.Returns outcome) {method : String} (hm : w.test.name ≠ method) :
    Untouched method s (advance w s).2 := by
  obtain ⟨test, b, retry, phase⟩ := w
  cases h.stage with
  | starting =>
    rw [advance_starting]
    exact untouched_announce s hm
  | executing =>
    obtain ⟨e, he, _⟩ := ht retry s.world
    simp only [advance]
    rcases hx : test.execute retry s.world with ⟨x, world⟩
    rw [hx] at he
    cases he
    exact ⟨rfl, rfl, id⟩
  | filingFailure a steps ha =>
    rw [advance_filingFailure]
    exact untouched_fileFailure s a (ha.method.trans_ne hm)
  | ending a steps ha =>
    rw [advance_ending]
    exact untouched_conclude s a _ _ (ha.context.trans hc.symm) (ha.method.trans_ne hm)
  | retrying a steps ha =>
    rw [advance_filingOutcome]
    exact untouched_settle s (hidden a) (ha.method.trans_ne hm)
  | finishing a steps ha =>
    rw [advance_filingOutcome]
    exact untouched_settle s a (ha.method.trans_ne hm)
  | done => exact ⟨rfl, rfl, id⟩

end Steps

end Suite

end TestTrail
