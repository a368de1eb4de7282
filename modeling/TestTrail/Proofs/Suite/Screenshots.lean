/-
Screenshots of the tests of a context.

An execution of a test begins with a fresh test in the directory of the context, runs the test's code, and finishes the
test. A test is conducted when its executions are like this, whatever the code is (`TestCase.Conducted`); those of a plan
are (`PlanTest.conducted`). The tree of an execution then has numbered screenshots of its test, and from the execution it
goes into the report of the method (`Carries`, with step and run lemma), whatever turns the workers take.

So it is for the file names to keep the screenshots of two tests apart, and they do so unless one of the two ways in which
file names coincide is there (`screenshots_of_reports`). Tests whose names are not confusable never share a file. In a
plan there are only the pictures of the end, and two tests share one exactly if their names are the same once they are
safe (`end_screenshots_shared_iff`); distinct names can be (`distinct_names_share_screenshot`).
-/
import TestTrail.Proofs.Calls.Screenshots
import TestTrail.Proofs.Suite.Crashes

namespace TestTrail

open Recorder TestTrail.Text

/-- an execution in which a test of this name begins, in a directory or in none, its code runs, and the test ends -/
def Execution.Of (test : String) (dir : Option String) (e : Execution) : Prop :=
  ∃ (σ : Type) (x y : Scene σ), x.Opening test dir ∧ x.Reaches y ∧ e.steps = (y.run.finish e.failure).1

/-- every execution that comes back is one of this test in this directory -/
def TestCase.Conducted {ω : Type} (dir : Option String) (t : TestCase ω) : Prop :=
  ∀ retry world e, (t.execute retry world).1 = .ok e → e.Of t.name dir

/-- the files of a tree are numbered screenshots of a test -/
def Node.ShotsOf (dir test : String) (steps : List Node) : Prop :=
  ∀ a ∈ forestAttachments steps, ∃ n, 0 < n ∧ a.path = Shot.path dir ⟨test, n, a.label⟩

theorem Execution.Of.shotsOf {test dir : String} {e : Execution} (h : e.Of test (some dir)) :
    Node.ShotsOf dir test e.steps := by
  obtain ⟨σ, x, y, hopening, hreaches, hsteps⟩ := h
  intro a ha
  rw [hsteps] at ha
  obtain ⟨d, n, hd, hpos, hpath⟩ := hopening.files_finish hreaches e.failure a ha
  cases hd
  exact ⟨n, hpos, hpath⟩

/-- the tree of the present execution, or of the last one, once there is one -/
def Phase.steps? : Phase → Option (List Node)
  | .filingFailure _ steps => some steps
  | .ending _ steps => some steps
  | .filingOutcome _ _ steps => some steps
  | .done report => some report.steps
  | _ => none

namespace Suite

variable {ω : Type}

/-! ## Trees on their way into reports -/

/-- the tree that a worker has is one of these, and its report is about its test -/
structure Holds (P : List Node → Prop) (test : String) (phase : Phase) : Prop where
  steps : ∀ steps, phase.steps? = some steps → P steps
  method : ∀ report, phase = .done report → report.method = test

/-- what holds of the trees of all executions holds of the tree that the worker has -/
structure Carries (P : String → List Node → Prop) (w : Worker ω) : Prop where
  executed : ∀ retry world e, (w.test.execute retry world).1 = .ok e → P w.test.name e.steps
  phase : Holds (P w.test.name) w.test.name w.phase

section Steps

variable {P : List Node → Prop} {test : String} {phase : Phase} {tree : List Node}

theorem holds_of_none (hsteps : phase.steps? = none) : Holds P test phase := by
  refine ⟨fun steps h => ?_, fun report h => ?_⟩
  · rw [hsteps] at h
    cases h
  · rw [h] at hsteps
    cases hsteps

theorem holds_of_running (hsteps : phase.steps? = some tree) (hphase : ∀ report, phase ≠ .done report) (htree : P tree) :
    Holds P test phase := by
  refine ⟨fun steps h => ?_, fun report h => absurd h (hphase report)⟩
  rw [hsteps] at h
  cases h
  exact htree

theorem holds_afterOutcome {w : Worker ω} (htest : w.test.name = test) (result : TestResult) (state : MethodState)
    (htree : P tree) : Holds P test (afterOutcome w result state tree).phase := by
  have hdone : ∀ report : MethodReport, report.method = test → report.steps = tree → Holds P test (.done report) := by
    rintro report hmethod rfl
    exact ⟨fun steps h => Option.some.inj h ▸ htree, fun other h => Phase.done.inj h ▸ hmethod⟩
  unfold afterOutcome
  dsimp only
  split
  · split
    · exact holds_of_none rfl
    · exact hdone _ htest rfl
  · exact hdone _ htest rfl

theorem advance_carries {P : String → List Node → Prop} (w : Worker ω) (s : Shared ω) (h : Carries P w) :
    Carries P (advance w s).1 := by
  have htest := advance_test w s
  refine ⟨by rw [htest]; exact h.executed, ?_⟩
  rw [htest]
  obtain ⟨test, b, retry, phase⟩ := w
  cases phase with
  | starting => exact holds_of_none rfl
  | executing =>
    rcases hx : test.execute retry s.world with ⟨crash | e, world⟩
    · simp only [advance, hx]
      exact holds_of_none rfl
    · have htree : P test.name e.steps := h.executed retry s.world e (by rw [hx])
      simp only [advance, hx]
      split
      · exact holds_of_running rfl (fun _ hdone => by cases hdone) htree
      · exact holds_of_running rfl (fun _ hdone => by cases hdone) htree
  | filingFailure result tree =>
    exact holds_of_running rfl (fun _ hdone => by cases hdone) (h.phase.steps tree rfl)
  | ending result tree =>
    exact holds_of_running rfl (fun _ hdone => by cases hdone) (h.phase.steps tree rfl)
  | filingOutcome result state tree => exact holds_afterOutcome rfl result state (h.phase.steps tree rfl)
  | done report => exact h.phase
  | crashed crash => exact h.phase

end Steps

/-- what holds of all executions of the tests holds of the trees in all reports, whatever turns the workers take -/
theorem run_carries {P : String → List Node → Prop} {tests : List (TestCase ω)}
    (h : ∀ t ∈ tests, ∀ retry world e, (t.execute retry world).1 = .ok e → P t.name e.steps) (context : String)
    (retries : UInt32) (world : ω) (schedule : List Nat) :
    ∀ w ∈ ((start context retries tests world).run schedule).workers, Carries P w := by
  refine run_keeps advance_carries ?_ schedule
  intro w hw
  obtain ⟨t, ht, rfl⟩ := List.mem_map.1 hw
  refine ⟨by rw [hire_test]; exact h t ht, ?_⟩
  unfold hire
  split
  · exact holds_of_none rfl
  · exact holds_of_none rfl

theorem Carries.reports {P : String → List Node → Prop} {workers : List (Worker ω)} {reports : List MethodReport}
    (hcarries : ∀ w ∈ workers, Carries P w)
    (hdone : List.Forall₂ (fun w report => w.phase = .done report) workers reports) :
    reports.map MethodReport.method = workers.map (fun w => w.test.name) ∧ ∀ m ∈ reports, P m.method m.steps := by
  induction hdone with
  | nil => exact ⟨rfl, fun m hm => absurd hm List.not_mem_nil⟩
  | @cons w report workers reports hphase _ ih =>
    obtain ⟨hw, hworkers⟩ := List.forall_mem_cons.1 hcarries
    obtain ⟨hmap, hall⟩ := ih hworkers
    have hmethod : report.method = w.test.name := hw.phase.method report hphase
    have hsteps : P w.test.name report.steps := hw.phase.steps report.steps (by rw [hphase]; rfl)
    rw [← hmethod] at hsteps
    exact ⟨by rw [List.map_cons, List.map_cons, hmethod, hmap], List.forall_mem_cons.2 ⟨hsteps, hall⟩⟩

/-- the reports are about the tests, in order, and have the trees of their executions -/
theorem reports_carry {P : String → List Node → Prop} {tests : List (TestCase ω)} {context : String} {retries : UInt32}
    {world : ω} {schedule : List Nat} {reports : List MethodReport}
    (h : ∀ t ∈ tests, ∀ retry world e, (t.execute retry world).1 = .ok e → P t.name e.steps)
    (hreports : ((start context retries tests world).run schedule).methodReports = .ok reports) :
    reports.map MethodReport.method = tests.map TestCase.name ∧ ∀ m ∈ reports, P m.method m.steps := by
  have htests : ((start context retries tests world).run schedule).workers.map Worker.test = tests := by
    rw [run_tests, start_tests]
  have hdone := (methodReports_eq_ok_iff.1 hreports).imp fun _ _ => reportOf_eq_ok_iff.1
  obtain ⟨hmethods, hall⟩ := Carries.reports (run_carries h context retries world schedule) hdone
  refine ⟨?_, hall⟩
  calc reports.map MethodReport.method
      = (((start context retries tests world).run schedule).workers.map Worker.test).map TestCase.name := by
        rw [hmethods, List.map_map]; rfl
    _ = tests.map TestCase.name := by rw [htests]

end Suite

/-! ## Plans -/

section Plans

variable {setup : SuiteSetup} {env : Environment}

namespace PlanTest

/-- the record of a plan's test has no files when its calls have run -/
theorem held_calls (t : PlanTest) (setup : SuiteSetup) (retry : UInt32) (env : Environment) (a : Attachment) :
    a ∉ (Call.runAll t.calls (t.begin setup retry env)).2.recorder.held := fun ha =>
  absurd (TestRun.held_runAll t.calls _ a ha) List.not_mem_nil

theorem execute_eq_ok {t : PlanTest} {retry : UInt32} {e : Execution} (h : (t.execute setup retry env).1 = .ok e) :
    e.steps = ((Call.runAll t.calls (t.begin setup retry env)).2.finish e.failure).1 := by
  have hended : ∀ {p : List Node × TestRun Unit} {failure : Option Failure} {start stop : Int64},
      (Except.ok ⟨failure, p.1, start, stop⟩ : Except Crash Execution) = .ok e → e.failure = failure ∧ e.steps = p.1 := by
    rintro p failure start stop ⟨⟩
    exact ⟨rfl, rfl⟩
  unfold execute at h
  rcases hrun : Call.runAll t.calls (t.begin setup retry env) with ⟨a | f | c, run⟩ <;> rw [hrun] at h
  · obtain ⟨hfailure, hsteps⟩ := hended h
    rw [hfailure, hsteps]
  · obtain ⟨hfailure, hsteps⟩ := hended h
    rw [hfailure, hsteps]
  · cases h

theorem conducted (t : PlanTest) (setup : SuiteSetup) :
    (t.toTestCase setup).Conducted (setup.outputDir.map fun dir => Path.join dir (Path.safeName setup.context)) := by
  intro retry env e he
  refine ⟨Unit, ⟨t.begin setup retry env, []⟩, ⟨_, []⟩, ⟨rfl, rfl, rfl, rfl, rfl⟩, ?_, execute_eq_ok he⟩
  exact .single (.work (TestRun.keeps_runAll t.calls _) fun a ha => absurd ha (t.held_calls setup retry env a))

/-- the only file of an execution is the picture of its end, with the number one -/
theorem files_execute {t : PlanTest} {retry : UInt32} {e : Execution} (h : (t.execute setup retry env).1 = .ok e) :
    ∀ a ∈ Node.forestAttachments e.steps, ∃ dir, setup.outputDir = some dir ∧
      a.path = Shot.path (Path.join dir (Path.safeName setup.context)) ⟨t.name, 1, endName⟩ := by
  intro a ha
  rw [execute_eq_ok h] at ha
  have hkeeps := TestRun.keeps_runAll t.calls (t.begin setup retry env)
  have htaken := (TestRun.mem_files_finish ha).resolve_left (t.held_calls setup retry env a)
  rcases TestRun.captureScreenshot_cases (Call.runAll t.calls (t.begin setup retry env)).2 endName with
    ⟨driver, hnone⟩ | ⟨d, driver, store, taken, hdir, hsome, hpicture⟩
  · rw [hnone] at htaken
    cases htaken
  · rw [hsome] at htaken
    obtain rfl := hpicture a htaken
    rw [hkeeps.outputDir] at hdir
    obtain ⟨dir, hout, rfl⟩ := Option.map_eq_some_iff.1 hdir
    refine ⟨dir, hout, ?_⟩
    simp only [TestRun.nextShot, hkeeps.test, hkeeps.screenshots]
    rfl

end PlanTest

end Plans

/-! ## Reports -/

namespace Suite

/-- **Screenshots of different tests have different files unless their names are confusable.** Let a context run over
conducted tests, in a directory and with any turns of the workers. Then

* every file in a report is a screenshot of the report's test: its path is made of the directory, the test's name, a
  number, and the file's label;
* two such paths are the same exactly if the safe parts of the file names are the same, or one file name continues the
  other;
* so two tests have a file in common only if their names are confusable, and then there are numbers and labels with which
  they have. -/
theorem screenshots_of_reports {ω : Type} (context : String) (retries : UInt32) (tests : List (TestCase ω))
    (world : ω) (schedule : List Nat) (dir : String) (hconducted : ∀ t ∈ tests, t.Conducted (some dir))
    {reports : List MethodReport}
    (hreports : ((start context retries tests world).run schedule).methodReports = .ok reports) :
    reports.map MethodReport.method = tests.map TestCase.name ∧
      (∀ m ∈ reports, ∀ n ∈ reports, ∀ a ∈ Node.forestAttachments m.steps, ∀ b ∈ Node.forestAttachments n.steps,
        ∃ x y : Shot, (x.test = m.method ∧ 0 < x.number ∧ x.label = a.label ∧ a.path = x.path dir) ∧
          (y.test = n.method ∧ 0 < y.number ∧ y.label = b.label ∧ b.path = y.path dir) ∧
          (a.path = b.path ↔ x.Same y ∨ x.Continues y ∨ y.Continues x)) ∧
      ((tests.map TestCase.name).Pairwise (fun s t => ¬ Confusable s t) →
        reports.Pairwise fun m n =>
          ∀ a ∈ Node.forestAttachments m.steps, ∀ b ∈ Node.forestAttachments n.steps, a.path ≠ b.path) ∧
      ∀ s t, Confusable s t ↔
        ∃ x y : Shot, x.test = s ∧ y.test = t ∧ 0 < x.number ∧ 0 < y.number ∧ x.path dir = y.path dir := by
  obtain ⟨hmethods, hshots⟩ := reports_carry (P := Node.ShotsOf dir)
    (fun t ht retry world e he => (hconducted t ht retry world e he).shotsOf) hreports
  refine ⟨hmethods, ?_, ?_, ?_⟩
  · intro m hm n hn a ha b hb
    obtain ⟨k, hk, hpath⟩ := hshots m hm a ha
    obtain ⟨l, hl, hpath'⟩ := hshots n hn b hb
    refine ⟨⟨m.method, k, a.label⟩, ⟨n.method, l, b.label⟩, ⟨rfl, hk, rfl, hpath⟩, ⟨rfl, hl, rfl, hpath'⟩, ?_⟩
    rw [hpath, hpath', Shot.path_eq_iff]
  · intro hapart
    rw [← hmethods, List.pairwise_map] at hapart
    refine hapart.imp_of_mem fun hm hn hnames a ha b hb hsame => hnames ?_
    obtain ⟨k, hk, hpath⟩ := hshots _ hm a ha
    obtain ⟨l, hl, hpath'⟩ := hshots _ hn b hb
    rw [hpath, hpath', Shot.path_inj] at hsame
    exact Shot.confusable_of_fileName_eq hsame hk hl
  · intro s t
    simp only [Shot.path_inj]
    exact confusable_iff s t

end Suite

namespace SuiteSetup

/-- a context without operations that has a directory for its pictures -/
def gallery : SuiteSetup := { settings := {}, registry := .ofList [], context := "shop", outputDir := some "out" }

/-- a test without calls, of which there is a picture of the end -/
def still (name : String) : PlanTest := { name := name, calls := [] }

/-- the methods that are reported on, with the paths of their files -/
def pictures (reports : List MethodReport) : List (String × List String) :=
  reports.map fun m => (m.method, (Node.forestAttachments m.steps).map Attachment.path)

/-- the tests of the gallery -/
def stills (names : List String) : List (TestCase Environment) := names.map fun name => (still name).toTestCase gallery

theorem stills_conducted (names : List String) : ∀ t ∈ stills names, t.Conducted (some "out/shop") := by
  have hdir : gallery.outputDir.map (fun dir => Path.join dir (Path.safeName gallery.context)) = some "out/shop" := by
    decide
  intro t ht
  obtain ⟨name, -, rfl⟩ := List.mem_map.1 ht
  rw [← hdir]
  exact (still name).conducted gallery

/-- names that are apart once they are safe, and of which none goes on like a screenshot of the other -/
theorem log_in_beside_pay :
    (∀ t ∈ stills ["log in", "pay"], t.Conducted (some "out/shop")) ∧
      ∃ reports, ((Suite.start "shop" 0 (stills ["log in", "pay"]) opening).run [0, 1, 1, 0, 0, 1, 0, 1]).methodReports =
          .ok reports ∧
        pictures reports = [("log in", ["out/shop/log_in_1_Test_end.png"]), ("pay", ["out/shop/pay_1_Test_end.png"])] ∧
        reports.Pairwise fun m n =>
          ∀ a ∈ Node.forestAttachments m.steps, ∀ b ∈ Node.forestAttachments n.steps, a.path ≠ b.path := by
  have hpictures : (((Suite.start "shop" 0 (stills ["log in", "pay"]) opening).run
      [0, 1, 1, 0, 0, 1, 0, 1]).methodReports).toOption.map pictures =
        some [("log in", ["out/shop/log_in_1_Test_end.png"]), ("pay", ["out/shop/pay_1_Test_end.png"])] := by
    decide +kernel
  have hapart : ¬ Confusable "log in" "pay" := by
    rintro (hsame | hnamed | hnamed)
    · exact absurd hsame (by decide)
    · exact absurd hnamed.isPrefix (by decide)
    · exact absurd hnamed.isPrefix (by decide)
  have hnames : ((stills ["log in", "pay"]).map TestCase.name).Pairwise fun s t => ¬ Confusable s t :=
    List.pairwise_pair.2 hapart
  obtain ⟨reports, hfound, hshown⟩ := Option.map_eq_some_iff.1 hpictures
  have hok : ∀ {result : Except Crash (List MethodReport)}, result.toOption = some reports → result = .ok reports := by
    rintro (c | found) h
    · cases h
    · exact congrArg Except.ok (Option.some.inj h)
  have hreports := hok hfound
  have hscreenshots := Suite.screenshots_of_reports "shop" 0 (stills ["log in", "pay"]) opening [0, 1, 1, 0, 0, 1, 0, 1]
    "out/shop" (stills_conducted ["log in", "pay"]) hreports
  exact ⟨stills_conducted _, reports, hreports, hshown, hscreenshots.2.2.1 hnames⟩

/-- two tests of distinct names whose pictures were taken and written, and one file for both -/
theorem distinct_names_share_screenshot :
    "log in" ≠ "log_in" ∧
      ((gallery.run [still "log in", still "log_in"] opening).toOption.bind fun result =>
        result.report.toOption.map fun report => (pictures report.methods, result.env.store.files.map Prod.fst)) =
        some ([("log in", ["out/shop/log_in_1_Test_end.png"]), ("log_in", ["out/shop/log_in_1_Test_end.png"])],
          [["out", "shop", "log_in_1_Test_end.png"]]) := by
  exact ⟨by decide, by decide +kernel⟩

/-- **In a plan, two tests share a file exactly if their names are the same once they are safe.** -/
theorem end_screenshots_shared_iff (setup : SuiteSetup) (tests : List PlanTest) (env : Environment)
    (schedule : List Nat) {reports : List MethodReport}
    (hreports : ((setup.suite tests env).run schedule).methodReports = .ok reports) :
    ∀ m ∈ reports, ∀ n ∈ reports, ∀ a ∈ Node.forestAttachments m.steps, ∀ b ∈ Node.forestAttachments n.steps,
      (a.path = b.path ↔ Path.safeName m.method = Path.safeName n.method) := by
  obtain ⟨-, hfiles⟩ := Suite.reports_carry
    (P := fun test steps => ∀ a ∈ Node.forestAttachments steps, ∃ dir, setup.outputDir = some dir ∧
      a.path = Shot.path (Path.join dir (Path.safeName setup.context)) ⟨test, 1, endName⟩)
    (fun t ht retry world e he => by
      obtain ⟨p, -, rfl⟩ := List.mem_map.1 ht
      exact PlanTest.files_execute he) hreports
  intro m hm n hn a ha b hb
  obtain ⟨dir, hdir, hpath⟩ := hfiles m hm a ha
  obtain ⟨dir', hdir', hpath'⟩ := hfiles n hn b hb
  obtain rfl : dir = dir' := Option.some.inj (hdir.symm.trans hdir')
  rw [hpath, hpath', Shot.path_eq_iff]
  constructor
  · rintro (hsame | hon | hon)
    · exact hsame.test
    · exact absurd rfl hon.label_ne
    · exact absurd rfl hon.label_ne
  · exact fun hsame => .inl ⟨hsame, rfl, rfl⟩

end SuiteSetup

end TestTrail
