/-
Where a driver executes commands.

The journal says where a driver is: a switch to the top document leaves all frames, a switch to a frame enters it
(`framesOf`). A `DriverCommand` is an executed command together with the journal before it. `Call.driven` follows the
run of a call through all attempts and has these commands in order; `Grew` says that none is left out.

A replayed action goes to the frame of its element before each attempt, and then its one command is executed; so this is
in its place, wherever the calls before and around it have left the driver. A replayed composite goes to the top
document, and its primitives are executed there, be their elements in frames or not (`replayed_in_place`).
-/
import TestTrail.Proofs.Calls.Nesting

namespace TestTrail

variable {σ α : Type}

/-! ## Journals -/

/-- the frames entered since the driver was on the top document, outermost first -/
def framesOf (journal : List JournalEntry) : List String :=
  journal.foldl (fun path e =>
    match e with
    | .defaultContent => []
    | .frame name => path ++ [name]
    | .command .. => path) []

/-- who makes the driver execute commands -/
inductive Maker where
  | action
  | composite
  deriving DecidableEq, Repr

/-- a command that the driver executed, for an operation that is replayed or not -/
structure DriverCommand where
  maker : Maker
  replayed : Bool
  primitive : Primitive
  /-- the journal before it -/
  before : List JournalEntry
  deriving DecidableEq, Repr

namespace DriverCommand

/-- the frame of the element, if there is an element and it has one -/
def frame (x : DriverCommand) : Option String := x.primitive.element.bind Element.frame

/-- the driver is in the frame of the element, or on the top document when there is none -/
def InPlace (x : DriverCommand) : Prop := framesOf x.before = x.frame.toList

/-- where a replayed operation brings the driver -/
def Brought (x : DriverCommand) : Prop :=
  x.replayed = true →
    match x.maker with
    | .action => x.InPlace
    | .composite => framesOf x.before = []

end DriverCommand

/-- a journal has grown by executions, in order, and switches between them -/
inductive Grew : List JournalEntry → List DriverCommand → List JournalEntry → Prop where
  | nil (journal : List JournalEntry) : Grew journal [] journal
  | switch {journal later : List JournalEntry} {e : JournalEntry} {xs : List DriverCommand} (he : e.isCommand = false)
      (h : Grew (journal ++ [e]) xs later) : Grew journal xs later
  | command {journal later : List JournalEntry} {x : DriverCommand} {xs : List DriverCommand} (hx : x.before = journal)
      (h : Grew (journal ++ [x.primitive.entry]) xs later) : Grew journal (x :: xs) later

/-- a journal has grown, each replayed operation having brought the driver to its place -/
structure Told (journal : List JournalEntry) (xs : List DriverCommand) (later : List JournalEntry) : Prop where
  grew : Grew journal xs later
  brought : ∀ x ∈ xs, x.Brought

section Journals

variable {journal next later : List JournalEntry} {xs ys : List DriverCommand}

theorem framesOf_concat (journal : List JournalEntry) (e : JournalEntry) :
    framesOf (journal ++ [e]) =
      match e with
      | .defaultContent => []
      | .frame name => framesOf journal ++ [name]
      | .command .. => framesOf journal := by
  unfold framesOf
  rw [List.foldl_append]
  rfl

theorem Grew.trans (h : Grew journal xs next) (k : Grew next ys later) : Grew journal (xs ++ ys) later := by
  induction h with
  | nil => exact k
  | switch he _ ih => exact .switch he (ih k)
  | command hx _ ih => exact .command hx (ih k)

theorem Told.refl (journal : List JournalEntry) : Told journal [] journal :=
  ⟨.nil journal, fun _ hx => absurd hx List.not_mem_nil⟩

theorem Told.trans (h : Told journal xs next) (k : Told next ys later) : Told journal (xs ++ ys) later :=
  ⟨h.grew.trans k.grew, List.forall_mem_append.2 ⟨h.brought, k.brought⟩⟩

theorem told_switch {e : JournalEntry} (he : e.isCommand = false) : Told journal [] (journal ++ [e]) :=
  ⟨.switch he (.nil _), fun _ hx => absurd hx List.not_mem_nil⟩

theorem told_command {x : DriverCommand} (hx : x.before = journal) (hplace : x.Brought) :
    Told journal [x] (journal ++ [x.primitive.entry]) :=
  ⟨.command hx (.nil _), List.forall_mem_singleton.2 hplace⟩

end Journals

/-! ## Executions of a run -/

namespace TestRun

/-- the journal of the driver; without a driver there is nothing in it -/
def journal (r : TestRun σ) : List JournalEntry :=
  match r.driver with
  | some d => d.journal
  | none => []

/-- the execution of one command -/
def commandDriven (maker : Maker) (replayed : Bool) (p : Primitive) (r : TestRun σ) : List DriverCommand :=
  match r.driver with
  | some d => [⟨maker, replayed, p, d.journal⟩]
  | none => []

/-- one after another, unless the first does not succeed -/
def andThenDriven (first : Body σ Unit) (inside more : TestRun σ → List DriverCommand) (r : TestRun σ) :
    List DriverCommand :=
  inside r ++
    match first r with
    | (.ok _, r) => more r
    | _ => []

def commandsDriven (maker : Maker) (replayed : Bool) : List Primitive → TestRun σ → List DriverCommand
  | [], _ => []
  | p :: ps, r =>
    andThenDriven (forget (command p.command p.element p.args)) (commandDriven maker replayed p)
      (commandsDriven maker replayed ps) r

end TestRun

namespace Replay

/-- the executions in one attempt -/
def attemptDriven (frame : Option String) (inside : TestRun σ → List DriverCommand) (r : TestRun σ) :
    List DriverCommand :=
  match restoreFrame frame r with
  | (.ok (), r) => inside r
  | (.error _, _) => []

/-- the executions in all attempts, the discarded ones included -/
def drivenFrom (e : Replay) (deadline : Nat) (frame : Option String) (body : Body σ α)
    (inside : TestRun σ → List DriverCommand) : Nat → TestRun σ → List DriverCommand
  | 0, _ => []
  | fuel + 1, r =>
    attemptDriven frame inside r ++
      match next? e deadline frame body r with
      | some next => drivenFrom e deadline frame body inside fuel next
      | none => []

def driven (e : Replay) (frame : Option String) (body : Body σ α) (inside : TestRun σ → List DriverCommand)
    (r : TestRun σ) : List DriverCommand :=
  if clockLimit ≤ r.clock.now + e.timeout then []
  else
    drivenFrom e (r.clock.now + e.timeout) frame body inside attemptLimit
      { r with clock := r.clock.afterReading }

end Replay

namespace TestRun

/-- the executions in a call of an operation -/
def operationDriven (op : Operation) (frame : Option String) (body : Body σ α)
    (inside : TestRun σ → List DriverCommand) (r : TestRun σ) : List DriverCommand :=
  if op.replay then (Replay.ofSettings r.settings).driven frame body inside r else inside r

def compositeDriven (c : Composite) (r : TestRun σ) : List DriverCommand :=
  operationDriven (compositeOperation c r) none (unit c.primitives)
    (commandsDriven .composite (compositeOperation c r).replay c.primitives)
    (r.record fun rec => rec.openStep (compositeStep c r))

def compositesDriven : List Composite → TestRun σ → List DriverCommand
  | [], _ => []
  | c :: cs, r => andThenDriven (performComposite c) (compositeDriven c) (compositesDriven cs) r

end TestRun

namespace Call

open TestRun

mutual

/-- the commands that the driver executes while a call runs -/
def driven : Call → TestRun σ → List DriverCommand
  | operation target command children, r =>
    match r.registry.get? target.operation with
    | none => []
    | some op =>
      if op.kind = .action then
        let p : Primitive := ⟨command.getD target.operation, target.element, target.driverArgs⟩
        operationDriven op target.frame (TestRun.command p.command p.element p.args : Body σ String)
          (commandDriven .action op.replay p) (r.entered op target)
      else
        operationDriven op target.frame (fun r => runAll children r) (fun r => drivenAll children r)
          (r.entered op target)
  | composites batch, r => compositesDriven batch r
  | _, _ => []

def drivenAll : List Call → TestRun σ → List DriverCommand
  | [], _ => []
  | c :: cs, r =>
    c.driven r ++
      match c.run r with
      | (.ok _, r) => drivenAll cs r
      | _ => []

end

theorem drivenAll_cons (c : Call) (cs : List Call) :
    (drivenAll (c :: cs) : TestRun σ → List DriverCommand) = andThenDriven c.run c.driven (drivenAll cs) := rfl

end Call

/-! ## Bodies -/

/-- the driver, if there is one, is in the frame, or on the top document -/
def TestRun.At (frame : Option String) (r : TestRun σ) : Prop :=
  ∀ d, r.driver = some d → framesOf d.journal = frame.toList

/-- From the tests with some property on, the body makes the driver execute the commands of the account. -/
def Tells (P : TestRun σ → Prop) (body : Body σ α) (inside : TestRun σ → List DriverCommand) : Prop :=
  ∀ ⦃r⦄, P r → Told r.journal (inside r) (body r).2.journal

/-- any test -/
def Anywhere (_ : TestRun σ) : Prop := True

section Bodies

variable {body : Body σ α} {inside more : TestRun σ → List DriverCommand} {frame : Option String} {r t : TestRun σ}

theorem journal_of_driver (h : r.driver = t.driver) : r.journal = t.journal := by
  unfold TestRun.journal
  rw [h]

theorem journal_of_some {d : Driver} (h : r.driver = some d) : r.journal = d.journal := by
  unfold TestRun.journal
  rw [h]

theorem at_of_some {d : Driver} (h : r.driver = some d) (hd : framesOf d.journal = frame.toList) : r.At frame := by
  intro e he
  obtain rfl : d = e := Option.some.inj (h.symm.trans he)
  exact hd

theorem tells_andThen {P : TestRun σ → Prop} {first rest : Body σ Unit} (h : Tells P first inside)
    (hfirst : ∀ r, P r → P (first r).2) (k : Tells P rest more) :
    Tells P (andThen first rest) (TestRun.andThenDriven first inside more) := by
  intro r hr
  have htold := h hr
  have hafter := hfirst r hr
  unfold andThen TestRun.andThenDriven
  rcases hp : first r with ⟨a | f | c, after⟩ <;> rw [hp] at htold hafter
  · exact htold.trans (k hafter)
  · rw [List.append_nil]
    exact htold
  · rw [List.append_nil]
    exact htold

/-! ## Replays -/

theorem told_restoreFrame (frame : Option String) (r : TestRun σ) :
    Told r.journal [] (Replay.restoreFrame frame r).2.journal ∧
      ((Replay.restoreFrame frame r).1 = .ok () → (Replay.restoreFrame frame r).2.At frame) := by
  cases hr : r.driver with
  | none =>
    rw [restoreFrame_undriven hr]
    exact ⟨Told.refl r.journal, fun _ d hd => absurd (hr.symm.trans hd) (Option.some_ne_none d).symm⟩
  | some d =>
    rw [journal_of_some hr]
    rcases htop : d.toDefaultContent with ⟨result, top⟩
    obtain rfl : d.toDefaultContent.2 = top := congrArg Prod.snd htop
    have htold : Told d.journal [] d.toDefaultContent.2.journal := told_switch rfl
    have hat : framesOf d.toDefaultContent.2.journal = [] := framesOf_concat d.journal .defaultContent
    cases result with
    | error f =>
      rw [restoreFrame_top hr htop (Or.inr ⟨f, rfl⟩)]
      exact ⟨htold, fun hok => by cases hok⟩
    | ok _ =>
      cases frame with
      | none =>
        rw [restoreFrame_top hr htop (Or.inl rfl)]
        exact ⟨htold, fun _ => at_of_some rfl hat⟩
      | some name =>
        rcases hinside : d.toDefaultContent.2.toFrame name with ⟨result, inside⟩
        obtain rfl : (d.toDefaultContent.2.toFrame name).2 = inside := congrArg Prod.snd hinside
        rw [restoreFrame_frame hr htop hinside]
        refine ⟨htold.trans (told_switch rfl), fun _ => at_of_some rfl ?_⟩
        exact (framesOf_concat d.toDefaultContent.2.journal (.frame name)).trans (by rw [hat]; rfl)

theorem tells_attempt (h : Tells (TestRun.At frame) body inside) :
    Tells Anywhere (Replay.attempt frame body) (Replay.attemptDriven frame inside) := by
  intro r _
  obtain ⟨htold, hat⟩ := told_restoreFrame frame r
  unfold Replay.attempt Replay.attemptDriven
  rcases hp : Replay.restoreFrame frame r with ⟨f | _, after⟩ <;> rw [hp] at htold hat
  · exact htold
  · exact htold.trans (h (hat rfl))

theorem told_attemptsFrom (h : Tells (TestRun.At frame) body inside) (e : Replay) (deadline fuel done : Nat)
    (r : TestRun σ) :
    Told r.journal (e.drivenFrom deadline frame body inside fuel r)
      (e.attemptsFrom deadline frame body fuel done r).2.journal := by
  induction fuel generalizing done r with
  | zero => exact Told.refl r.journal
  | succ fuel ih =>
    have hattempt := tells_attempt h (r := r) trivial
    rw [Replay.drivenFrom]
    cases hnext : Replay.next? e deadline frame body r with
    | none =>
      obtain ⟨-, clock, hrun⟩ := Replay.attemptsFrom_last hnext fuel done
      rw [hrun, List.append_nil]
      exact hattempt
    | some next =>
      obtain ⟨f, after, hafter, -, -, rfl⟩ := Replay.next?_eq_some hnext
      rw [Replay.attemptsFrom_of_next hnext]
      rw [hafter] at hattempt
      exact hattempt.trans (ih (done + 1) (e.goneBack deadline r after))

theorem told_execute {op : Operation} (h : Tells (fun r => op.replay = true → r.At frame) body inside)
    (r : TestRun σ) :
    Told r.journal (TestRun.operationDriven op frame body inside r) (TestRun.execute op frame body r).2.journal := by
  unfold TestRun.operationDriven Replay.driven
  by_cases hreplay : op.replay = true
  · have hbody : Tells (TestRun.At frame) body inside := fun t ht => h fun _ => ht
    rw [TestRun.execute_replay hreplay, TestRun.answerOf_run, if_pos hreplay]
    by_cases hlimit : Replay.clockLimit ≤ r.clock.now + (Replay.ofSettings r.settings).timeout
    · rw [Replay.run_of_overflow hlimit, if_pos hlimit]
      exact Told.refl r.journal
    · rw [Replay.run_of_fits hlimit, if_neg hlimit]
      generalize Replay.attemptLimit = fuel
      exact told_attemptsFrom hbody _ _ fuel 0 { r with clock := r.clock.afterReading }
  · rw [TestRun.execute_once hreplay, if_neg hreplay]
    exact h fun hr => absurd hr hreplay

/-! ## Commands -/

theorem told_of_command {maker : Maker} {replayed : Bool} {p : Primitive}
    (hplace : ∀ d, r.driver = some d → (DriverCommand.mk maker replayed p d.journal).Brought) :
    Told r.journal (TestRun.commandDriven maker replayed p r)
      (TestRun.command p.command p.element p.args r).2.journal := by
  unfold TestRun.commandDriven TestRun.command
  cases hr : r.driver with
  | none => exact Told.refl r.journal
  | some d =>
    rw [journal_of_some hr]
    exact told_command rfl (hplace d hr)

theorem at_command (p : Primitive) (h : r.At frame) : (TestRun.command p.command p.element p.args r).2.At frame := by
  unfold TestRun.command
  cases hr : r.driver with
  | none => exact h
  | some d => exact at_of_some rfl ((framesOf_concat d.journal p.entry).trans (h d hr))

/-- the primitives of a composite -/
theorem tells_commands (replayed : Bool) (ps : List Primitive) :
    Tells (fun r : TestRun σ => replayed = true → r.At none) (TestRun.commands ps)
      (TestRun.commandsDriven .composite replayed ps) := by
  induction ps with
  | nil => exact fun r _ => Told.refl r.journal
  | cons p ps ih =>
    rw [commands_cons]
    refine tells_andThen (fun r hr => ?_) (fun r hr hreplayed => at_command p (hr hreplayed)) ih
    exact told_of_command fun d hd hreplayed => hr hreplayed d hd

theorem commandsDriven_undriven (hr : r.driver = none) (replayed : Bool) (ps : List Primitive) :
    TestRun.commandsDriven .composite replayed ps r = [] := by
  cases ps with
  | nil => rfl
  | cons p ps =>
    unfold TestRun.commandsDriven TestRun.andThenDriven TestRun.commandDriven forget TestRun.command
    rw [hr]
    rfl

theorem tells_unit (replayed : Bool) (ps : List Primitive) :
    Tells (fun r : TestRun σ => replayed = true → r.At none) (TestRun.unit ps)
      (TestRun.commandsDriven .composite replayed ps) := by
  intro r hat
  unfold TestRun.unit
  cases hr : r.driver with
  | none =>
    rw [commandsDriven_undriven hr]
    exact Told.refl r.journal
  | some d => exact tells_commands replayed ps hat

/-! ## Calls -/

theorem told_intercept {i : Invocation} {op : Operation} (hop : r.registry.get? i.operation = some op)
    (h : Tells (fun r => op.replay = true → r.At i.frame) body inside) :
    Told r.journal (TestRun.operationDriven op i.frame body inside (r.entered op i))
      (TestRun.intercept i body r).2.journal := by
  have htold := told_execute h (r.entered op i)
  rwa [← journal_of_driver (TestRun.alike_entered op i r).driver,
    journal_of_driver (TestRun.intercept_entered hop body).2.driver] at htold

theorem tells_performComposite (c : Composite) :
    Tells Anywhere (TestRun.performComposite c : Body σ Unit) (TestRun.compositeDriven c) := by
  intro r _
  rw [← journal_of_driver (TestRun.alike_performComposite c r).driver]
  exact told_execute (tells_unit _ c.primitives) (r.record fun rec => rec.openStep (TestRun.compositeStep c r))

theorem tells_performComposites (cs : List Composite) :
    Tells Anywhere (TestRun.performComposites cs : Body σ Unit) (TestRun.compositesDriven cs) := by
  induction cs with
  | nil => exact fun r _ => Told.refl r.journal
  | cons c cs ih =>
    rw [TestRun.performComposites_cons]
    exact tells_andThen (tells_performComposite c) (fun _ h => h) ih

/-- a call that is one driver command -/
theorem told_action {i : Invocation} {op : Operation} (hop : r.registry.get? i.operation = some op) (name : String) :
    Told r.journal
      (TestRun.operationDriven op i.frame (TestRun.command name i.element i.driverArgs)
        (TestRun.commandDriven .action op.replay ⟨name, i.element, i.driverArgs⟩) (r.entered op i))
      (r.perform i name).2.journal :=
  told_intercept hop fun _ hat => told_of_command (p := ⟨name, i.element, i.driverArgs⟩) fun d hd hreplayed =>
    hat hreplayed d hd

end Bodies

namespace Call

mutual

theorem tells_run (c : Call) : Tells Anywhere (c.run : Body σ Unit) c.driven := by
  cases c with
  | operation target command children =>
    intro r _
    rw [driven, run]
    cases hop : r.registry.get? target.operation with
    | none =>
      rw [isAction, hop]
      simp only [Bool.false_eq_true, if_false]
      rw [TestRun.intercept_undeclared hop]
      exact Told.refl r.journal
    | some op =>
      rw [isAction, hop]
      by_cases hk : op.kind = .action
      · simp only [hk, beq_self_eq_true, if_true]
        exact told_action hop _
      · have hstep : (op.kind == .action) = false := by simpa using hk
        simp only [hstep, hk, Bool.false_eq_true, if_false]
        exact told_intercept hop fun _ _ => tells_runAll children trivial
  | composites batch => exact tells_performComposites batch
  | step name => exact fun r _ => Told.refl r.journal
  | message text level => exact fun r _ => Told.refl r.journal
  | secret value => exact fun r _ => Told.refl r.journal
  | fail text => exact fun r _ => Told.refl r.journal

theorem tells_runAll (cs : List Call) : Tells Anywhere (runAll cs : Body σ Unit) (drivenAll cs) := by
  cases cs with
  | nil => exact fun r _ => Told.refl r.journal
  | cons c cs =>
    rw [runAll_cons, drivenAll_cons]
    exact tells_andThen (tells_run c) (fun _ h => h) (tells_runAll cs)

end

/-- **Replayed actions are in their place, replayed composites on top.** While calls run, the journal grows by the
commands of their account, each with the journal before it, and by switches. Where a replayed action executes its
command, on any attempt, the driver is in the frame of the element, or on the top document when there is none. Where a
replayed composite executes one of its primitives, the driver is on the top document; so this is the place of the
element exactly if the element is in no frame. None of it depends on where the driver was before. -/
theorem replayed_in_place (calls : List Call) (r : TestRun σ) :
    Grew r.journal (drivenAll calls r) (runAll calls r).2.journal ∧
      ∀ x ∈ drivenAll calls r, x.replayed = true →
        (x.InPlace ↔ x.maker = .action ∨ x.frame = none) ∧ (x.maker = .composite → framesOf x.before = []) := by
  have htold : Told r.journal (drivenAll calls r) (runAll calls r).2.journal := tells_runAll calls trivial
  refine ⟨htold.grew, fun x hx hreplayed => ?_⟩
  have hbrought := htold.brought x hx hreplayed
  cases hmaker : x.maker with
  | action =>
    rw [hmaker] at hbrought
    exact ⟨⟨fun _ => Or.inl rfl, fun _ => hbrought⟩, fun h => by cases h⟩
  | composite =>
    rw [hmaker] at hbrought
    refine ⟨?_, fun _ => hbrought⟩
    have htop : framesOf x.before = [] := hbrought
    unfold DriverCommand.InPlace
    rw [htop]
    cases x.frame with
    | none => exact ⟨fun _ => Or.inr rfl, fun _ => rfl⟩
    | some name => simp

/-- a button in a frame -/
def payButton : Element := ⟨"ok", "By.id: ok", some "payment"⟩

/-- a click on the button, alone and in a composite -/
def payTwice : List Call :=
  [.operation { operation := "click", element := some payButton } none [],
    .composites [{ primitives := [{ command := "click", element := some payButton }] }]]

/-- a page on which the first click is too early -/
def paymentPage : TestRun Unit :=
  { TestRun.start "pay" {} (.ofList [.ofKind "click" .action]) (.steady 0) {} Recorder.noon () with
    driver := some (Driver.failNext {} "click" 1 ⟨.stale, "click"⟩) }

/-- both attempts of the action are in the frame of the button -/
theorem click_in_frame :
    (drivenAll payTwice paymentPage).map (fun x => (x.maker, x.replayed, framesOf x.before)) =
        [(.action, true, ["payment"]), (.action, true, ["payment"]), (.composite, true, [])] ∧
      Grew paymentPage.journal (drivenAll payTwice paymentPage) (runAll payTwice paymentPage).2.journal ∧
      ∀ x ∈ drivenAll payTwice paymentPage, x.replayed = true →
        (x.InPlace ↔ x.maker = .action ∨ x.frame = none) ∧ (x.maker = .composite → framesOf x.before = []) :=
  ⟨by decide +kernel, replayed_in_place payTwice paymentPage⟩

/-- the composite, which is replayed, clicks on the button without having entered its frame -/
theorem composite_click_on_top :
    ¬ ∀ x ∈ drivenAll payTwice paymentPage, x.replayed = true → x.InPlace := by
  have hclick : ∃ x ∈ drivenAll payTwice paymentPage,
      x.replayed = true ∧ x.frame = some "payment" ∧ framesOf x.before = [] := by decide +kernel
  intro hall
  obtain ⟨x, hx, hreplayed, hframe, htop⟩ := hclick
  have hplace : framesOf x.before = x.frame.toList := hall x hx hreplayed
  rw [htop, hframe] at hplace
  cases hplace

end Call

end TestTrail
