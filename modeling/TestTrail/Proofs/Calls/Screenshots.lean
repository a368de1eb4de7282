/-
The screenshots of a running test.

A `Scene` is a running test with an album of the pictures that it has taken. Its code goes on by taking a picture, or by
anything else (`Next`): it may record, go back, use the driver and the files as it likes, but it keeps the test's name
and directory, and what it puts on steps are pictures from the album. All operations of the recorder are such steps
(`next_apply`), and so are rollbacks and whole calls of a plan.

Every picture is then a numbered screenshot of the test (`Took`), wherever it is: this holds of a test that begins, each
step keeps it (`Orderly.next`), and so does a run (`Orderly.reaches`). It holds of the tree that the end of the test hands
over (`Opening.files_finish`). The calls of a plan take no pictures at all (`keeps_runAll`, `held_runAll`).
-/
import Mathlib.Logic.Relation
import TestTrail.Proofs.Calls.Passage
import TestTrail.Proofs.Recorder.Attachments
import TestTrail.Proofs.Text.FileNames

namespace TestTrail

open Recorder

/-! ## Files on steps -/

namespace Recorder

variable {r : Recorder} {a : Attachment}

/-- the files that come with an operation -/
def brought : Op → List Attachment
  | .openStep s => s.allAttachments
  | .attachFile a => [a]
  | .finish _ screenshot => screenshot.toList
  | _ => []

theorem mem_forestAttachments {ns : List Node} : a ∈ Node.forestAttachments ns ↔ ∃ n ∈ ns, a ∈ n.attachments := by
  induction ns with
  | nil => simp [Node.forestAttachments]
  | cons n ns ih => simp [Node.forestAttachments, ih]

theorem mem_held : a ∈ r.held ↔
    a ∈ Node.forestAttachments r.roots ∨
      ∃ x ∈ r.openSteps, a ∈ x.head.attachments ∨ a ∈ Node.forestAttachments x.children := by
  simp only [held, List.mem_append, List.mem_flatMap, allAttachments_eq]

theorem held_openStep_any (r : Recorder) (x : Step) :
    (r.openStep x).held =
      Node.forestAttachments r.roots ++ (x.allAttachments ++ r.openSteps.flatMap Step.allAttachments) := by
  have hfiles : (opened r x).allAttachments = x.allAttachments := rfl
  rw [openStep_eq]
  unfold held
  rw [List.flatMap_cons, hfiles]

/-- an operation adds no files but those that come with it -/
theorem mem_held_apply {o : Op} (h : a ∈ (r.apply o).held) : a ∈ r.held ∨ a ∈ brought o := by
  have hrecording : o.Recording → a ∈ r.held ∨ a ∈ r.accepted o := fun ho =>
    List.mem_append.1 ((held_apply r ho).mem_iff.1 (List.mem_append_left _ h))
  cases o with
  | openStep x =>
    rw [apply, held_openStep_any] at h
    simp only [List.mem_append] at h
    unfold held brought
    simp only [List.mem_append]
    tauto
  | attachFile b =>
    have haccepted : r.accepted (.attachFile b) ⊆ [b] := by
      rw [accepted]
      split
      · exact List.Subset.refl _
      · exact List.nil_subset _
    exact (hrecording trivial).imp_right fun hb => haccepted hb
  | takeSteps =>
    have hsteps : (r.apply .takeSteps).held = [] := by
      unfold held
      exact congrArg (List.flatMap Step.allAttachments) (openSteps_closeAll r)
    rw [hsteps] at h
    exact absurd h List.not_mem_nil
  | _ => exact hrecording trivial

/-- going back adds no files -/
theorem mem_held_rollback {c : Checkpoint} (h : a ∈ (r.rollback c).held) : a ∈ r.held := by
  have htake : ∀ {n : Nat} {ns : List Node}, a ∈ Node.forestAttachments (ns.take n) → a ∈ Node.forestAttachments ns := by
    intro n ns hn
    obtain ⟨m, hm, ha⟩ := mem_forestAttachments.1 hn
    exact mem_forestAttachments.2 ⟨m, List.mem_of_mem_take hm, ha⟩
  rw [mem_held] at h ⊢
  rcases h with h | ⟨x, hx, h⟩
  · exact .inl (htake h)
  · obtain ⟨y, note, hy, rfl⟩ : ∃ y note, y ∈ r.openSteps ∧ x = restoreStep y note := by
      have hzip := List.mem_reverse.1 hx
      rw [← List.map_uncurry_zip_eq_zipWith] at hzip
      obtain ⟨⟨y, note⟩, hpair, rfl⟩ := List.mem_map.1 hzip
      exact ⟨y, note, List.mem_reverse.1 (List.of_mem_zip hpair).1, rfl⟩
    exact .inr ⟨y, hy, h.imp id htake⟩

/-- the calls of a plan put no files on steps -/
theorem lawful_held : Lawful fun s _ _ r => ∀ a ∈ r.held, a ∈ s.held where
  moved s time _ a ha := ha
  action h x _ a ha := h a ((mem_held_apply (o := .recordAction x) ha).resolve_right List.not_mem_nil)
  message h text level a ha := h a ((mem_held_apply (o := .recordMessage text level) ha).resolve_right List.not_mem_nil)
  bracket h hx outcome _ a ha := by
    have hinside := h a ((mem_held_apply (o := .closeStep outcome) ha).resolve_right List.not_mem_nil)
    rwa [held_openStep _ hx] at hinside
  append h k a ha := h a (k a ha)
  failed h _ := h
  discard h a ha := h a (mem_held_rollback ha)
  renamed h _ a ha := by
    have hheld := held_congr h.roots (map_eq_of_forall₂ h.stack fun {x y} hxy => (by rw [hxy]; rfl))
    rwa [hheld] at ha
  failure s f a ha := by rwa [held_failCurrent] at ha

end Recorder

/-! ## Calls of a plan -/

namespace TestRun

variable {σ : Type} {r t : TestRun σ}

/-- the same test, with as many screenshots -/
structure Keeps (r t : TestRun σ) : Prop where
  test : t.test = r.test
  outputDir : t.outputDir = r.outputDir
  screenshots : t.screenshots = r.screenshots

theorem beside_keeps : Beside fun r t : TestRun σ => Keeps r t where
  record _ _ := ⟨rfl, rfl, rfl⟩
  trans h k := ⟨k.test.trans h.test, k.outputDir.trans h.outputDir, k.screenshots.trans h.screenshots⟩
  reading _ := ⟨rfl, rfl, rfl⟩
  pause _ _ := ⟨rfl, rfl, rfl⟩
  drive _ _ := ⟨rfl, rfl, rfl⟩

theorem keeps_runAll (calls : List Call) (r : TestRun σ) : r.Keeps (Call.runAll calls r).2 :=
  beside_keeps.runAll calls r

theorem held_runAll (calls : List Call) (r : TestRun σ) :
    ∀ a ∈ (Call.runAll calls r).2.recorder.held, a ∈ r.recorder.held :=
  Call.runAll_obeys lawful_held calls
    (.inr fun _ name _ ha => (mem_held_apply (o := .addStep name) ha).resolve_right List.not_mem_nil) r

/-! ## Taking a picture -/

/-- the screenshot that comes next -/
def nextShot (r : TestRun σ) (label : String) : Shot := ⟨r.test, r.screenshots + 1, label⟩

/-- a picture that is not taken costs no number, and one that is taken may still get no file -/
theorem captureScreenshot_cases (r : TestRun σ) (label : String) :
    (∃ driver, r.captureScreenshot label = (none, { r with driver := driver })) ∨
      ∃ dir driver store taken, r.outputDir = some dir ∧
        r.captureScreenshot label =
          (taken, { r with driver := driver, screenshots := r.screenshots + 1, store := store }) ∧
        ∀ a ∈ taken, a = ⟨label, (r.nextShot label).path dir⟩ := by
  unfold captureScreenshot
  split
  · rename_i dir driver hdir _
    rcases driver.screenshot with ⟨f | screen, next⟩
    · exact .inl ⟨some next, rfl⟩
    · rcases hwritten : r.store.writeInto dir (r.screenshotPath dir label) (.image screen) with ⟨problem, store⟩
      dsimp only
      rw [hwritten]
      cases problem with
      | none => exact .inr ⟨dir, some next, store, _, hdir, rfl, fun a ha => (Option.some.inj ha).symm⟩
      | some e => exact .inr ⟨dir, some next, store, none, hdir, rfl, fun a ha => nomatch ha⟩
  · exact .inl ⟨r.driver, rfl⟩

/-- a picture is not recorded, and the number of pictures never goes down -/
theorem captureScreenshot_rest (r : TestRun σ) (label : String) :
    (r.captureScreenshot label).2.recorder = r.recorder ∧ (r.captureScreenshot label).2.test = r.test ∧
      (r.captureScreenshot label).2.outputDir = r.outputDir ∧
      r.screenshots ≤ (r.captureScreenshot label).2.screenshots := by
  rcases captureScreenshot_cases r label with ⟨driver, h⟩ | ⟨dir, driver, store, taken, -, h, -⟩
  · rw [h]
    exact ⟨rfl, rfl, rfl, Nat.le_refl _⟩
  · rw [h]
    exact ⟨rfl, rfl, rfl, Nat.le_succ _⟩

theorem recorder_captureScreenshot (r : TestRun σ) (label : String) :
    (r.captureScreenshot label).2.recorder = r.recorder := (captureScreenshot_rest r label).1

/-- the file is one of the screenshots that the test has taken -/
def Took (r : TestRun σ) (a : Attachment) : Prop :=
  ∃ dir n, r.outputDir = some dir ∧ 0 < n ∧ n ≤ r.screenshots ∧ a.path = Shot.path dir ⟨r.test, n, a.label⟩

theorem Took.keeps {a : Attachment} (h : r.Took a) (hkeeps : r.Keeps t) : t.Took a := by
  obtain ⟨dir, n, hdir, hpos, hle, hpath⟩ := h
  rw [← hkeeps.test] at hpath
  exact ⟨dir, n, hkeeps.outputDir.trans hdir, hpos, hkeeps.screenshots.symm ▸ hle, hpath⟩

theorem Took.captureScreenshot {a : Attachment} (h : r.Took a) (label : String) : (r.captureScreenshot label).2.Took a := by
  obtain ⟨dir, n, hdir, hpos, hle, hpath⟩ := h
  obtain ⟨-, htest, houtput, hcount⟩ := captureScreenshot_rest r label
  rw [← htest] at hpath
  exact ⟨dir, n, houtput.trans hdir, hpos, Nat.le_trans hle hcount, hpath⟩

theorem took_of_captured {a : Attachment} {label : String} (h : a ∈ (r.captureScreenshot label).1) :
    (r.captureScreenshot label).2.Took a := by
  rcases captureScreenshot_cases r label with ⟨driver, hr⟩ | ⟨dir, driver, store, taken, hdir, hr, htaken⟩
  · rw [hr] at h
    cases h
  · rw [hr] at h ⊢
    obtain rfl := htaken a h
    refine ⟨dir, r.screenshots + 1, hdir, Nat.succ_pos r.screenshots, Nat.le_refl (r.screenshots + 1), ?_⟩
    simp only [nextShot]

/-- the tree of a finished test has the files of its record, and the picture of the end -/
theorem mem_files_finish {failure : Option Failure} {a : Attachment}
    (h : a ∈ Node.forestAttachments (r.finish failure).1) :
    a ∈ r.recorder.held ∨ a ∈ (r.captureScreenshot endName).1 := by
  let ended := (r.captureScreenshot endName).2.recorder.finish failure (r.captureScreenshot endName).1
  have htaken : a ∈ Node.filesOfSteps ended.takeSteps.1 := by
    rw [Node.filesOfSteps_eq]
    exact h
  have hended := (filesOfSteps_takeSteps ended).mem_iff.1 (List.mem_append_left _ htaken)
  refine (mem_held_apply (o := .finish failure (r.captureScreenshot endName).1) hended).imp (fun ha => ?_) fun ha => ?_
  · rwa [recorder_captureScreenshot] at ha
  · exact Option.mem_toList.1 ha

end TestRun

/-! ## Scenes -/

variable {σ : Type}

/-- a running test and the pictures that it has -/
structure Scene (σ : Type) where
  run : TestRun σ
  album : List Attachment := []

namespace Scene

variable {x y : Scene σ} {test : String} {dir : Option String}

/-- one thing that the code of a test does -/
inductive Next (x : Scene σ) : Scene σ → Prop where
  | work {t : TestRun σ} (keeps : x.run.Keeps t)
      (files : ∀ a ∈ t.recorder.held, a ∈ x.run.recorder.held ∨ a ∈ x.album) : Next x ⟨t, x.album⟩
  | photograph (label : String) :
      Next x ⟨(x.run.captureScreenshot label).2, x.album ++ (x.run.captureScreenshot label).1.toList⟩

/-- any operation of the recorder, if only pictures from the album are put on steps -/
theorem next_apply (x : Scene σ) {o : Op} (h : ∀ a ∈ brought o, a ∈ x.album) :
    Next x ⟨x.run.record fun rec => rec.apply o, x.album⟩ :=
  .work ⟨rfl, rfl, rfl⟩ fun _ ha => (mem_held_apply ha).imp_right (h _)

abbrev Reaches : Scene σ → Scene σ → Prop := Relation.ReflTransGen Next

/-- all files are screenshots that the test has taken -/
structure Orderly (x : Scene σ) : Prop where
  album : ∀ a ∈ x.album, x.run.Took a
  held : ∀ a ∈ x.run.recorder.held, x.run.Took a

/-- the test of a name that begins, in a directory or in none -/
structure Opening (test : String) (dir : Option String) (x : Scene σ) : Prop where
  test : x.run.test = test
  outputDir : x.run.outputDir = dir
  screenshots : x.run.screenshots = 0
  held : x.run.recorder.held = []
  album : x.album = []

theorem Opening.orderly (h : x.Opening test dir) : x.Orderly := by
  constructor
  · rw [h.album]
    exact fun a ha => absurd ha List.not_mem_nil
  · rw [h.held]
    exact fun a ha => absurd ha List.not_mem_nil

theorem Orderly.next (h : x.Orderly) (hnext : Next x y) : y.Orderly := by
  cases hnext with
  | work keeps files =>
    exact ⟨fun a ha => (h.album a ha).keeps keeps,
      fun a ha => ((files a ha).elim (h.held a) (h.album a)).keeps keeps⟩
  | photograph label =>
    constructor
    · intro a ha
      rcases List.mem_append.1 ha with ha | ha
      · exact (h.album a ha).captureScreenshot label
      · exact TestRun.took_of_captured (Option.mem_toList.1 ha)
    · intro a ha
      rw [TestRun.recorder_captureScreenshot] at ha
      exact (h.held a ha).captureScreenshot label

theorem Orderly.reaches (h : x.Orderly) (hreaches : x.Reaches y) : y.Orderly := by
  induction hreaches with
  | refl => exact h
  | tail _ hnext ih => exact ih.next hnext

/-- no step gives the test another name or another directory -/
theorem Next.identity (h : Next x y) : y.run.test = x.run.test ∧ y.run.outputDir = x.run.outputDir := by
  cases h with
  | work keeps files => exact ⟨keeps.test, keeps.outputDir⟩
  | photograph label =>
    obtain ⟨-, htest, houtput, -⟩ := TestRun.captureScreenshot_rest x.run label
    exact ⟨htest, houtput⟩

theorem identity_of_reaches (h : x.Reaches y) : y.run.test = x.run.test ∧ y.run.outputDir = x.run.outputDir := by
  induction h with
  | refl => exact ⟨rfl, rfl⟩
  | tail _ hnext ih => exact ⟨hnext.identity.1.trans ih.1, hnext.identity.2.trans ih.2⟩

/-- **The tree of a test has numbered screenshots of this test**, whatever its code does with its pictures. -/
theorem Opening.files_finish (hx : x.Opening test dir) (h : x.Reaches y) (failure : Option Failure) :
    ∀ a ∈ Node.forestAttachments (y.run.finish failure).1,
      ∃ d n, dir = some d ∧ 0 < n ∧ a.path = Shot.path d ⟨test, n, a.label⟩ := by
  intro a ha
  have hended : Next y _ := .photograph endName
  have htook : (y.run.captureScreenshot endName).2.Took a := by
    have horderly := (hx.orderly.reaches h).next hended
    rcases TestRun.mem_files_finish ha with hheld | htaken
    · exact horderly.held a (by rwa [TestRun.recorder_captureScreenshot])
    · exact TestRun.took_of_captured htaken
  obtain ⟨htest, houtput⟩ := identity_of_reaches (h.tail hended)
  obtain ⟨d, n, hd, hpos, -, hpath⟩ := htook
  rw [htest, hx.test] at hpath
  rw [houtput, hx.outputDir] at hd
  exact ⟨d, n, hd, hpos, hpath⟩

end Scene

end TestTrail
