/-
What a retry budget comes to.

A budget is asked, retries are taken out of it, and its maximum is raised, in any order. A history of such uses has a
transcript, the uses with their answers. `Kept` is the invariant of a history that begins with a maximum: the maximum
and the count as plain numbers, told from the raises and the grants so far. `use_kept` is the step lemma, and `after_kept`
has it for whole histories.

The cap is twice the first maximum, so from half the range of 32 bits on there is no budget (`ofMax?_eq_none_iff`), although
the raised maximum itself would fit (`no_budget_for_large_maximum`).
-/
import TestTrail.Retry.Budget
import TestTrail.Word
import Mathlib.Data.List.Induction

namespace TestTrail

/-- a number below another one has a successor in 32 bits -/
theorem Word.toNat_succ {k m : UInt32} (h : k < m) : (k + 1).toNat = k.toNat + 1 := by
  have hm := m.toNat_lt
  have hk : k.toNat < m.toNat := UInt32.lt_iff_toNat_lt.1 h
  rw [UInt32.toNat_add]
  exact Nat.mod_eq_of_lt (by simp; omega)

namespace Budget

/-- what is done with a budget -/
inductive Use where
  | peek (result : TestResult)
  | take (result : TestResult)
  | raise
  deriving DecidableEq

/-- the answer, if there is one, and the budget behind it -/
def use (b : Budget) : Use → Option Bool × Budget
  | .peek r => (some (b.grants r), b)
  | .take r => (some (b.take r).1, (b.take r).2)
  | .raise => (none, b.raise)

def after (b : Budget) (uses : List Use) : Budget := uses.foldl (fun b u => (b.use u).2) b

/-- the uses with their answers -/
def transcript : Budget → List Use → List (Use × Option Bool)
  | _, [] => []
  | b, u :: uses => (u, (b.use u).1) :: transcript (b.use u).2 uses

/-- a retry that was taken -/
def isGrant : Use × Option Bool → Bool
  | (.take _, some true) => true
  | _ => false

theorem after_concat (b : Budget) (uses : List Use) (u : Use) : b.after (uses ++ [u]) = ((b.after uses).use u).2 := by
  simp [after]

theorem transcript_concat (b : Budget) (uses : List Use) (u : Use) :
    b.transcript (uses ++ [u]) = b.transcript uses ++ [(u, ((b.after uses).use u).1)] := by
  induction uses generalizing b with
  | nil => rfl
  | cons v uses ih =>
    simp only [List.cons_append, transcript, ih]
    rfl

/-! ## Asking and taking -/

variable {b : Budget} {r : TestResult}

theorem count_lt_of_grants (h : b.grants r = true) : b.count < b.max := by
  simp only [grants, Bool.and_eq_true, decide_eq_true_eq] at h
  exact h.2

theorem take_of_grants (h : b.grants r = true) : b.take r = (true, { b with count := b.count + 1 }) := by
  unfold take
  rw [if_pos h]

theorem take_of_not_grants (h : b.grants r = false) : b.take r = (false, b) := by
  unfold take
  rw [if_neg (Bool.eq_false_iff.1 h)]

theorem answer_take (b : Budget) (r : TestResult) : (b.take r).1 = b.grants r := by
  cases h : b.grants r with
  | true => rw [take_of_grants h]
  | false => rw [take_of_not_grants h]

/-- what the retry number of a result says, and what it leaves out -/
theorem grants_of_retry (h : r.retry = b.count) : b.grants r = (mayMend r.error && b.willBeRetried r) := by
  unfold grants willBeRetried
  rw [h, Bool.and_assoc]

/-! ## Histories -/

/-- a budget with a first maximum, so many raises and so many grants later -/
structure Kept (m : UInt32) (raises grants : Nat) (b : Budget) : Prop where
  cap : b.cap.toNat = Max.max (2 * m.toNat) 2
  max : b.max.toNat = min (m.toNat + raises) (Max.max (2 * m.toNat) 2)
  count : b.count.toNat = grants
  le : b.count ≤ b.max

variable {m : UInt32} {raises grants : Nat}

theorem ofMax?_eq_none_iff : ofMax? m = none ↔ Word.limit32 ≤ 2 * m.toNat := by
  unfold ofMax?
  split
  · rename_i hfits
    exact ⟨fun h => absurd h (Option.some_ne_none _), fun h => absurd hfits (Nat.not_lt.2 h)⟩
  · rename_i hlarge
    exact ⟨fun _ => Nat.le_of_not_lt hlarge, fun _ => rfl⟩

theorem exists_ofMax? (hfits : 2 * m.toNat < Word.limit32) : ∃ b, ofMax? m = some b :=
  Option.ne_none_iff_exists'.1 fun h => Nat.not_le.2 hfits (ofMax?_eq_none_iff.1 h)

/-- the product in 32 bits is the product, where there is a budget -/
theorem kept_ofMax? (h : ofMax? m = some b) : Kept m 0 0 b := by
  unfold ofMax? at h
  split at h
  · rename_i hfits
    cases h
    have htwo : (2 : UInt32).toNat = 2 := rfl
    have hdouble : (m * 2).toNat = 2 * m.toNat := by
      rw [UInt32.toNat_mul, htwo, Nat.mul_comm]
      exact Nat.mod_eq_of_lt hfits
    refine ⟨?_, ?_, rfl, UInt32.zero_le⟩
    · simp only [UInt32.lt_iff_toNat_lt, hdouble, htwo]
      split
      · omega
      · omega
    · simp only
      omega
  · cases h

theorem fresh_of_ofMax? (h : ofMax? m = some b) : b.count = 0 ∧ b.max = m := by
  unfold ofMax? at h
  split at h
  · cases h
    exact ⟨rfl, rfl⟩
  · cases h

theorem Kept.take (h : Kept m raises grants b) (r : TestResult) :
    Kept m raises (grants + if b.grants r then 1 else 0) (b.take r).2 := by
  cases hg : b.grants r with
  | true =>
    have hlt := count_lt_of_grants hg
    have hsucc := Word.toNat_succ hlt
    rw [take_of_grants hg]
    refine ⟨h.cap, h.max, ?_, ?_⟩
    · simp only [hsucc, h.count, if_true]
    · exact UInt32.le_iff_toNat_le.2 (by rw [hsucc]; exact UInt32.lt_iff_toNat_lt.1 hlt)
  | false =>
    rw [take_of_not_grants hg]
    exact h

/-- the maximum goes up until it meets the cap -/
theorem Kept.raise (h : Kept m raises grants b) : Kept m (raises + 1) grants b.raise := by
  have hmax := h.max
  have hcap := h.cap
  unfold Budget.raise
  split
  · rename_i hlt
    have hsucc := Word.toNat_succ hlt
    have hlt' := UInt32.lt_iff_toNat_lt.1 hlt
    refine ⟨h.cap, ?_, h.count, ?_⟩
    · simp only [hsucc]
      omega
    · have hle := UInt32.le_iff_toNat_le.1 h.le
      exact UInt32.le_iff_toNat_le.2 (by simp only [hsucc]; omega)
  · rename_i hge
    have hge' := mt UInt32.lt_iff_toNat_lt.2 hge
    exact ⟨h.cap, by omega, h.count, h.le⟩

theorem use_kept (h : Kept m raises grants b) (u : Use) :
    Kept m (raises + if u = .raise then 1 else 0) (grants + if isGrant (u, (b.use u).1) then 1 else 0) (b.use u).2 := by
  cases u with
  | peek r => exact h
  | take r =>
    have htake := h.take r
    rw [← answer_take] at htake
    unfold use isGrant
    cases hanswer : (b.take r).1 with
    | true => simpa [hanswer] using htake
    | false => simpa [hanswer] using htake
  | raise => exact h.raise

theorem after_kept (h : ofMax? m = some b) (uses : List Use) :
    Kept m (uses.count .raise) ((b.transcript uses).countP isGrant) (b.after uses) := by
  induction uses using List.reverseRecOn with
  | nil => exact kept_ofMax? h
  | append_singleton uses u ih =>
    have hstep := use_kept ih u
    rw [after_concat, transcript_concat, List.count_append, List.countP_append, List.count_singleton,
      List.countP_singleton]
    simpa using hstep

/-! ## The laws -/

/-- **The arithmetic of a budget.** Let a budget begin with the maximum `m`, and let it be asked, retries be taken and the
maximum be raised, in any order. If twice `m` fits 32 bits, there is such a budget, and

* after `n` raises the maximum is `m + n`, but no more than twice `m`, or two if that is more;
* the count is the number of retries that were granted, and never exceeds the maximum;
* a retry is granted exactly if asking for it just before would have promised it.

If twice `m` does not fit, there is no budget. -/
theorem budget_after_any_use (m : UInt32) :
    (2 * m.toNat < Word.limit32 → ∃ fresh, ofMax? m = some fresh ∧ ∀ uses,
      let b := fresh.after uses
      b.max.toNat = min (m.toNat + uses.count .raise) (Max.max (2 * m.toNat) 2) ∧ b.count ≤ b.max ∧
        b.count.toNat = (fresh.transcript uses).countP isGrant ∧ ∀ r, (b.use (.take r)).1 = (b.use (.peek r)).1) ∧
      (Word.limit32 ≤ 2 * m.toNat → ofMax? m = none) := by
  refine ⟨fun hfits => ?_, ofMax?_eq_none_iff.2⟩
  obtain ⟨fresh, hfresh⟩ := exists_ofMax? hfits
  refine ⟨fresh, hfresh, fun uses => ?_⟩
  have hkept := after_kept hfresh uses
  exact ⟨hkept.max, hkept.le, hkept.count, fun r => congrArg some (answer_take _ r)⟩

/-- the law has a value for this maximum and one raise, and it fits 32 bits, but there is no budget -/
theorem no_budget_for_large_maximum :
    ofMax? 2147483648 = none ∧
      min ((2147483648 : UInt32).toNat + [Use.raise].count .raise) (Max.max (2 * (2147483648 : UInt32).toNat) 2) =
        2147483649 ∧
      2147483649 < Word.limit32 := by
  decide

/-- a maximum of one goes up to two, however often it is raised, and so the third retry is not granted -/
theorem third_retry_refused :
    let failed : TestResult :=
      { method := "pay", context := "shop", status := .failure, retry := 0, startMillis := 0, endMillis := 0 }
    ∃ fresh, ofMax? 1 = some fresh ∧
      let b := fresh.after [.take failed, .raise, .raise, .raise, .take failed]
      b.max.toNat = 2 ∧ b.count.toNat = 2 ∧ (b.use (.take failed)).1 = some false := by
  intro failed
  obtain ⟨fresh, hfresh, hlaws⟩ := (budget_after_any_use 1).1 (by decide)
  obtain ⟨hmax, -, hcount, htake⟩ := hlaws [.take failed, .raise, .raise, .raise, .take failed]
  obtain rfl : (⟨0, 1, 2⟩ : Budget) = fresh := Option.some.inj ((show ofMax? 1 = some ⟨0, 1, 2⟩ by decide).symm.trans hfresh)
  exact ⟨_, hfresh, hmax.trans (by decide), hcount.trans (by decide), (htake failed).trans (by decide)⟩

end Budget

end TestTrail
