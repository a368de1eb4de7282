/-
When a replayed attempt leaves no trace.

`Tracked` is about a stretch of recording: it leaves a trace as `Recorder.Trace` has it, and if the code succeeded, the
attempts that were discarded in between judge the record: all kept their root step, and the record is good, or there is
a gap in its numbers. It is respected by all that a test does (`tracked_lawful`, `tracked_addStep`), so it holds of
every run.

`no_trace_iff_roots_kept` is the result for a whole test. A call of `step` inside a replayed operation closes the root
step that was open before the attempt, and a rollback cannot open it again; `confirmInsideReplay` is such a test. Where
all calls of `step` stand on top, every attempt goes on from the record before it (`kept_lawful`), and keeps the root
step.
-/
import TestTrail.Plan.Suite
import TestTrail.Proofs.Calls.Recording

namespace TestTrail

open Recorder

variable {σ : Type}

/-- a stretch of recording, judged by what was discarded in it -/
structure Tracked (s : Recorder) (ds : List Discard) (ok : Bool) (r : Recorder) : Prop where
  trace : Trace s r
  judged : ok = true → Good s → Judged ds r

/-- more is recorded, and a success adds no flaw -/
theorem Tracked.record {s t r : Recorder} {ds : List Discard} {ok : Bool} (h : Tracked s ds ok t) (htrace : Trace t r)
    (hgood : ok = true → Good t → Good r) : Tracked s ds ok r :=
  ⟨h.trace.trans htrace, fun hok hg => (h.judged hok hg).map htrace.toLater (hgood hok)⟩

theorem tracked_renamed {s r : Recorder} (h : Renamed s r) (ok : Bool) : Tracked s [] ok r :=
  ⟨h.trace, fun _ hg => judged_nil (h.good hg)⟩

theorem tracked_lawful : Lawful Tracked where
  moved s time ok := tracked_renamed (renamed_moveTo s time) ok
  renamed h ok := tracked_renamed h ok
  action h a ha := h.record (trace_recordAction _ a) fun hok hg => hg.recordAction (ha hok).1 (ha hok).2
  message h text level := h.record (trace_recordMessage _ text level) fun _ hg => hg.recordMessage text level
  failure s f := ⟨trace_failCurrent s _, fun hok => by cases hok⟩
  bracket h hx outcome ho := by
    refine ⟨h.trace.bracket outcome, fun hok hg => ?_⟩
    rw [ho hok]
    exact (h.judged hok (hg.openStep hx)).map (shuts_closeStep _ none).later fun ht => ht.closeStep
  append h k := by
    refine ⟨h.trace.trans k.trace, fun hok hg => ?_⟩
    exact (h.judged rfl hg).append k.trace.toLater (k.judged hok)
  failed h _ := ⟨h.trace, fun hok => by cases hok⟩
  discard h := ⟨h.trace.rollback, fun _ hg => judged_rollback hg h.trace⟩

theorem tracked_addStep (s : Recorder) (name : String) : Tracked s [] true (s.addStep name) :=
  ⟨trace_addStep s name, fun _ hg => judged_nil (hg.addStep name)⟩

namespace Call

/-- the attempts that a new test discarded judge its record, when its calls succeed -/
theorem judged_of_ok (calls : List Call) {r : TestRun σ} {maskEnabled : Bool} {now : Timestamp}
    (hfresh : r.recorder = Recorder.fresh maskEnabled now) (hok : (runAll calls r).1 = .ok ()) :
    Judged (discardsAll calls r) (runAll calls r).2.recorder := by
  refine (runAll_obeys tracked_lawful calls (Or.inr tracked_addStep) r).judged ?_ ?_
  · rw [hok]
    rfl
  · rw [hfresh]
    exact fresh_good maskEnabled now

/-! ## Whole tests -/

theorem recorder_captureScreenshot (r : TestRun σ) (label : String) :
    (r.captureScreenshot label).2.recorder = r.recorder := by
  unfold TestRun.captureScreenshot
  split
  · split
    · rfl
    · rfl
  · rfl

theorem finish_eq (r : TestRun σ) (failure : Option Failure) :
    ∃ screenshot, (r.finish failure).1 = (r.recorder.finish failure screenshot).roots := by
  refine ⟨(r.captureScreenshot endName).1, ?_⟩
  rw [← takeSteps_finish, ← recorder_captureScreenshot r endName]
  rfl

/-- **A replayed attempt leaves no trace exactly when it leaves the root step open.** When the calls of a new test
succeed, whatever the driver does and whatever the clock shows: nothing in the finished forest failed and its root
steps are numbered 0, 1, 2 and so on, if and only if after each attempt that was discarded the root step that was open
before it was still open. -/
theorem no_trace_iff_roots_kept (calls : List Call) (r : TestRun σ) (maskEnabled : Bool) (now : Timestamp)
    (hfresh : r.recorder = Recorder.fresh maskEnabled now) (hok : (runAll calls r).1 = .ok ()) :
    (Node.allFlawless ((runAll calls r).2.finish none).1 = true ∧
      ∃ n, Node.positions ((runAll calls r).2.finish none).1 = (List.range n).map some) ↔
      ∀ d ∈ discardsAll calls r, d.keepsRoot = true := by
  have hjudged := judged_of_ok calls hfresh hok
  obtain ⟨screenshot, hforest⟩ := finish_eq (runAll calls r).2 none
  rw [hforest]
  constructor
  · rintro ⟨_, hnumbers⟩ d hd
    by_contra hlost
    exact finish_gap (hjudged.gap ⟨d, hd, Bool.eq_false_of_not_eq_true hlost⟩) screenshot hnumbers
  · exact fun hall => finish_good (hjudged.good hall) screenshot

def shop : Registry :=
  Registry.ofList
    [{ id := "pay", kind := .step, replay := false }, { id := "checkout", kind := .step, replay := true },
      { id := "click", kind := .action, replay := false }]

def click : Call := .operation { operation := "click" } none []

/-- `confirm` is a step of its own, and the click behind it fails the first time -/
def confirmInsideReplay : PlanTest :=
  { name := "buy", driver := { failures := [{ command := "click", times := some 1, kind := "stale" }] }
    calls := [.operation { operation := "pay" } none
      [.message "hi" .info, .operation { operation := "checkout" } none [.step "confirm", click]]] }

/-- the same without the step: the click is all that is replayed -/
def clickInsideReplay : PlanTest :=
  { confirmInsideReplay with
    calls := [.operation { operation := "pay" } none
      [.message "hi" .info, .operation { operation := "checkout" } none [click]]] }

/-- the first execution of a test, on a clock that only pauses move -/
def firstRun (t : PlanTest) : TestRun Unit :=
  t.begin { settings := {}, registry := shop, context := "shop" } 0
    { clock := .steady 0, now := Recorder.noon }

/-- the step inside the replay closes `pay`, which is lost, and the failed click stays in a step of the first attempt -/
theorem traces_of_confirm_inside_replay :
    let (outcome, r) := runAll confirmInsideReplay.calls (firstRun confirmInsideReplay)
    problemIn? shop confirmInsideReplay.name confirmInsideReplay.calls = none ∧ outcome = .ok () ∧
      Node.allFlawless (r.finish none).1 = false ∧ Node.positions (r.finish none).1 = [some 1, some 1, some 2] := by
  decide +kernel

/-- a click that fails the first time is replayed inside `pay`, and nothing is left of its first attempt -/
theorem no_trace_of_click_inside_replay :
    let r := (runAll clickInsideReplay.calls (firstRun clickInsideReplay)).2
    (discardsAll clickInsideReplay.calls (firstRun clickInsideReplay)).length = 1 ∧
      Node.allFlawless (r.finish none).1 = true ∧
      ∃ n, Node.positions (r.finish none).1 = (List.range n).map some :=
  ⟨by decide +kernel,
    (no_trace_iff_roots_kept clickInsideReplay.calls (firstRun clickInsideReplay) true Recorder.noon rfl
      (by decide +kernel)).2 (by decide +kernel)⟩

/-! ## Steps on top -/

/-- a continuation, with nothing discarded but attempts that keep their root step -/
structure Kept (s : Recorder) (ds : List Discard) (ok : Bool) (r : Recorder) : Prop where
  continues : Continues s r
  roots : ok = true → ∀ d ∈ ds, d.keepsRoot = true

theorem keepsRoot_of_continues {s t : Recorder} (h : Continues s t) : (Discard.mk s t).keepsRoot = true := by
  unfold Discard.keepsRoot
  by_cases ho : s.openSteps = []
  · rw [ho]
    rfl
  · rw [h.rootNumber_eq ho, beq_self_eq_true, Bool.or_true]

theorem kept_renamed {s r : Recorder} (h : Renamed s r) (ok : Bool) : Kept s [] ok r :=
  ⟨h.continues, fun _ _ hd => absurd hd List.not_mem_nil⟩

theorem kept_lawful : Lawful Kept where
  moved s time ok := kept_renamed (renamed_moveTo s time) ok
  renamed h ok := kept_renamed h ok
  action h a _ := ⟨h.continues.trans ((Extends.refl _).recordAction a).continues, h.roots⟩
  message h text level := ⟨h.continues.trans ((Extends.refl _).recordMessage text level).continues, h.roots⟩
  failure s f := ⟨((Extends.refl s).failCurrent _).continues, fun hok => by cases hok⟩
  bracket h _ outcome _ := ⟨h.continues.bracket outcome, h.roots⟩
  append h k := by
    refine ⟨h.continues.trans k.continues, fun hok d hd => ?_⟩
    rcases List.mem_append.1 hd with hd | hd
    · exact h.roots rfl d hd
    · exact k.roots hok d hd
  failed h _ := ⟨h.continues, fun hok => by cases hok⟩
  discard h := by
    refine ⟨h.continues.rollback.continues, fun _ d hd => ?_⟩
    rw [List.mem_singleton.1 hd]
    exact keepsRoot_of_continues h.continues

/-- a step of its own, or a call without one inside it -/
def onTop : Call → Bool
  | step _ => true
  | c => c.stepFree

theorem keepsRoot_of_onTop {c : Call} (h : c.onTop = true) {r : TestRun σ} (hok : (c.run r).1.isOk = true) :
    ∀ d ∈ c.discards r, d.keepsRoot = true := by
  cases c with
  | step name => exact fun d hd => absurd hd List.not_mem_nil
  | _ => exact (run_obeys kept_lawful _ (Or.inl h) r).roots hok

theorem keepsRoot_of_allOnTop {calls : List Call} (h : calls.all onTop = true) {r : TestRun σ}
    (hok : (runAll calls r).1.isOk = true) : ∀ d ∈ discardsAll calls r, d.keepsRoot = true := by
  induction calls generalizing r with
  | nil => exact fun d hd => absurd hd List.not_mem_nil
  | cons c calls ih =>
    rw [List.all_cons, Bool.and_eq_true] at h
    rw [discardsAll_cons]
    rw [runAll_cons] at hok
    unfold andThen at hok
    unfold andThenDiscards
    have hfirst := keepsRoot_of_onTop h.1 (r := r)
    rcases hr : c.run r with ⟨b | f | x, after⟩
    · rw [hr] at hok hfirst
      intro d hd
      rcases List.mem_append.1 hd with hd | hd
      · exact hfirst rfl d hd
      · exact ih h.2 hok d hd
    · rw [hr] at hok
      cases hok
    · rw [hr] at hok
      cases hok

/-- **A test with all its steps on top leaves no trace of a replay.** When no call of `step` stands inside another call
and the calls of a new test succeed, nothing in the finished forest failed, and its root steps are numbered 0, 1, 2 and
so on. -/
theorem no_trace_of_allOnTop (calls : List Call) (r : TestRun σ) (maskEnabled : Bool) (now : Timestamp)
    (hfresh : r.recorder = Recorder.fresh maskEnabled now) (htop : calls.all onTop = true)
    (hok : (runAll calls r).1 = .ok ()) :
    Node.allFlawless ((runAll calls r).2.finish none).1 = true ∧
      ∃ n, Node.positions ((runAll calls r).2.finish none).1 = (List.range n).map some := by
  have hall := keepsRoot_of_allOnTop htop (r := r) (by rw [hok]; rfl)
  obtain ⟨screenshot, hforest⟩ := finish_eq (runAll calls r).2 none
  rw [hforest]
  exact finish_good ((judged_of_ok calls hfresh hok).good hall) screenshot

end Call

end TestTrail
