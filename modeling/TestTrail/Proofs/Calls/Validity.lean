/-
Valid plans.

`called` lists the operations that a call names, at any depth, each with the calls it holds. A plan is valid exactly when
all of them are declared, and those that are declared as actions hold no calls; of several declarations with one id the
last one counts (`problem?_eq_none_iff`).

The validity of a plan is found out before it runs. `runAllOr` is a run in which an operation that nobody declared does
something else than to fail; with the failure in its place it is the run itself (`runAllOr_refused`). For the calls of a
valid plan it makes no difference what is done there (`runAllOr_of_sound`), so a run never gets there.
-/
import Mathlib.Data.List.Induction
import TestTrail.Proofs.Calls.Passage

namespace TestTrail

open Recorder

variable {σ α : Type}

/-! ## Declarations -/

namespace Registry

/-- the last declaration with an id -/
def lastDeclared (ops : List Operation) (id : String) : Option Operation :=
  (ops.filter fun op => op.id == id).getLast?

theorem lastDeclared_concat (ops : List Operation) (op : Operation) (id : String) :
    lastDeclared (ops ++ [op]) id = if op.id = id then some op else lastDeclared ops id := by
  unfold lastDeclared
  rw [List.filter_append, List.getLast?_append]
  by_cases h : op.id = id <;> simp [h]

theorem get?_ofList (ops : List Operation) (id : String) : (ofList ops).get? id = lastDeclared ops id := by
  induction ops using List.reverseRecOn with
  | nil => rfl
  | append_singleton ops op ih =>
    rw [lastDeclared_concat, ← ih, ← get?_register, ofList, List.foldl_concat]
    rfl

end Registry

/-! ## Plans -/

namespace Call

mutual

/-- the operations that a call names, at any depth, each with the calls it holds -/
def called : Call → List (Invocation × List Call)
  | operation target _ children => (target, children) :: calledIn children
  | _ => []

def calledIn : List Call → List (Invocation × List Call)
  | [] => []
  | c :: cs => c.called ++ calledIn cs

end

/-- a declared operation, which holds calls only if it is no action -/
def Sound (registry : Registry) (c : Invocation × List Call) : Prop :=
  ∃ op, registry.get? c.1.operation = some op ∧ (op.kind = .action → c.2 = [])

mutual

theorem problem?_eq_none (registry : Registry) (test : String) (c : Call) :
    c.problem? registry test = none ↔ ∀ x ∈ c.called, Sound registry x := by
  cases c with
  | operation target command children =>
    rw [called, List.forall_mem_cons, ← problemIn?_eq_none registry test children, problem?]
    unfold Sound
    cases registry.get? target.operation with
    | none => simp
    | some op =>
      by_cases hkind : op.kind = .action
      · cases children <;> simp [hkind]
      · simp [hkind]
  | _ => simp [problem?, called]

theorem problemIn?_eq_none (registry : Registry) (test : String) (cs : List Call) :
    problemIn? registry test cs = none ↔ ∀ x ∈ calledIn cs, Sound registry x := by
  cases cs with
  | nil => simp [problemIn?, calledIn]
  | cons c cs =>
    rw [calledIn, List.forall_mem_append, ← problem?_eq_none registry test c, ← problemIn?_eq_none registry test cs,
      problemIn?]
    cases c.problem? registry test <;> simp

end

end Call

theorem Plan.problem?_eq_none_iff (p : Plan) :
    p.problem? = none ↔ ∀ t ∈ p.tests, ∀ c ∈ Call.calledIn t.calls, Call.Sound p.registry c := by
  unfold Plan.problem?
  rw [List.findSome?_eq_none_iff]
  exact forall₂_congr fun t _ => Call.problemIn?_eq_none p.registry t.name t.calls

/-! ## Runs -/

/-- bodies that do the same in a test from now on -/
def Coincide (r : TestRun σ) (body other : Body σ α) : Prop := ∀ t, Onward r t → body t = other t

section Coincidence

variable {r t : TestRun σ} {body other : Body σ α}

theorem coincide_attempt (h : Coincide r body other) (frame : Option String) (ht : Onward r t) :
    Replay.attempt frame body t = Replay.attempt frame other t := by
  have hswitched := passage_onward.trans ht (beside_onward.restoreFrame frame t)
  unfold Replay.attempt
  rcases hr : Replay.restoreFrame frame t with ⟨_ | _, after⟩
  · rfl
  · rw [hr] at hswitched
    exact h after hswitched

theorem coincide_attemptsFrom (h : Coincide r body other) (hbody : ∀ t, Onward t (body t).2) (e : Replay)
    (deadline : Nat) (frame : Option String) (fuel done : Nat) (ht : Onward r t) :
    Replay.attemptsFrom e deadline frame body fuel done t = Replay.attemptsFrom e deadline frame other fuel done t := by
  induction fuel generalizing done t with
  | zero => rfl
  | succ fuel ih =>
    have hafter := beside_onward.attempt hbody frame t
    rw [Replay.attemptsFrom, Replay.attemptsFrom, ← coincide_attempt h frame ht]
    rcases hr : Replay.attempt frame body t with ⟨a | f | c, after⟩
    · rfl
    · rw [hr] at hafter
      have hnext := ih (done + 1) (passage_onward.trans ht (beside_onward.goneBack e deadline hafter))
      unfold Replay.goneBack at hnext
      simp only [hnext]
    · rfl

theorem coincide_execute (h : Coincide r body other) (hbody : ∀ t, Onward t (body t).2) (op : Operation)
    (frame : Option String) (ht : Onward r t) :
    TestRun.execute op frame body t = TestRun.execute op frame other t := by
  by_cases hr : op.replay = true
  · rw [TestRun.execute_replay hr, TestRun.execute_replay hr]
    unfold Replay.run
    generalize Replay.attemptLimit = fuel
    simp only [coincide_attemptsFrom h hbody _ _ frame fuel 0 (passage_onward.trans ht (passage_onward.reading t))]
  · rw [TestRun.execute_once hr, TestRun.execute_once hr, h t ht]

theorem coincide_intercept (h : Coincide r body other) (hbody : ∀ t, Onward t (body t).2) (i : Invocation)
    (ht : Onward r t) : TestRun.intercept i body t = TestRun.intercept i other t := by
  have hexecute := fun op (k : TestRun σ) => coincide_execute (t := k) h hbody op i.frame
  cases hop : t.registry.get? i.operation with
  | none => rw [TestRun.intercept_undeclared hop, TestRun.intercept_undeclared hop]
  | some op =>
    by_cases hk : op.kind = .action
    · rw [TestRun.intercept_action hop hk, TestRun.intercept_action hop hk, TestRun.interceptAction_eq,
        TestRun.interceptAction_eq, hexecute op t ht]
    · rw [TestRun.intercept_step hop hk, TestRun.intercept_step hop hk]
      by_cases hm : t.settings.manualTestSteps = true
      · rw [TestRun.interceptStep_manual op i body hm, TestRun.interceptStep_manual op i other hm, hexecute op t ht]
      · rw [TestRun.interceptStep_eq op i body hm, TestRun.interceptStep_eq op i other hm,
          hexecute op _ (passage_onward.trans ht (passage_onward.alike (alike_record t _)))]

end Coincidence

namespace Call

/-- what a run does on an operation that nobody declared -/
def refused (i : Invocation) : Body σ Unit := fun r => (.failed (TestRun.unknownOperation i.operation), r)

mutual

/-- the run of a call, with something else in place of that -/
def runOr (undeclared : Invocation → Body σ Unit) : Call → Body σ Unit
  | operation target command children, r =>
    if (r.registry.get? target.operation).isNone then undeclared target r
    else if isAction r.registry target.operation then (operation target command children).run r
    else r.intercept target (fun r => runAllOr undeclared children r)
  | c, r => c.run r

def runAllOr (undeclared : Invocation → Body σ Unit) : List Call → Body σ Unit
  | [], r => (.ok (), r)
  | c :: cs, r =>
    match c.runOr undeclared r with
    | (.ok _, r) => runAllOr undeclared cs r
    | (outcome, r) => (outcome, r)

end

variable {undeclared : Invocation → Body σ Unit} {r : TestRun σ}

theorem runAllOr_cons (c : Call) (cs : List Call) :
    runAllOr undeclared (c :: cs) = andThen (c.runOr undeclared) (runAllOr undeclared cs) := rfl

mutual

/-- where the other thing is no other thing, or is never done -/
theorem runOr_eq (c : Call) {t : TestRun σ}
    (h : ∀ x ∈ c.called, r.registry.get? x.1.operation = none → undeclared x.1 = refused x.1) (ht : Onward r t) :
    c.runOr undeclared t = c.run t := by
  cases c with
  | operation target command children =>
    rw [called, List.forall_mem_cons] at h
    have hchildren : Coincide r (fun t => runAll children t) fun t => runAllOr undeclared children t :=
      fun t ht => (runAllOr_eq children h.2 ht).symm
    rw [runOr]
    split
    · rename_i hnone
      have hr := Option.isNone_iff_eq_none.1 hnone
      have haction : isAction t.registry target.operation = false := by simp [isAction, hr]
      rw [h.1 ((ht.get?_eq_none _).1 hr), run, if_neg (by simp [haction]), TestRun.intercept_undeclared hr]
      rfl
    · split
      · rfl
      · rename_i haction
        rw [run, if_neg haction]
        exact (coincide_intercept hchildren (beside_onward.runAll children) target ht).symm
  | _ => rfl

theorem runAllOr_eq (cs : List Call) {t : TestRun σ}
    (h : ∀ x ∈ calledIn cs, r.registry.get? x.1.operation = none → undeclared x.1 = refused x.1) (ht : Onward r t) :
    runAllOr undeclared cs t = runAll cs t := by
  cases cs with
  | nil => rfl
  | cons c cs =>
    rw [calledIn, List.forall_mem_append] at h
    have hafter := passage_onward.trans ht (beside_onward.run c t)
    rw [runAllOr_cons, runAll_cons]
    unfold andThen
    rw [runOr_eq c h.1 ht]
    rcases hc : c.run t with ⟨a | f | x, after⟩
    · rw [hc] at hafter
      exact runAllOr_eq cs h.2 hafter
    · rfl
    · rfl

end

theorem runAllOr_refused (cs : List Call) : (runAllOr refused cs : Body σ Unit) = runAll cs :=
  funext fun r => runAllOr_eq cs (fun _ _ _ => rfl) (beside_onward.refl r)

/-- nothing is done on undeclared operations where all are declared -/
theorem runAllOr_of_sound {cs : List Call} (h : ∀ x ∈ calledIn cs, Sound r.registry x) :
    runAllOr undeclared cs r = runAll cs r := by
  refine runAllOr_eq cs (fun x hx hnone => ?_) (beside_onward.refl r)
  obtain ⟨op, hop, -⟩ := h x hx
  exact absurd (hnone.symm.trans hop) (by simp)

end Call

end TestTrail
