/-
Deeds: what a test comes to in the end.

Below all steps and replays a test makes its driver execute commands, and fails by itself: these are its deeds, from left
to right (`deedsIn`). `carryOut` does deeds with a driver, without a record, a clock or a replay. How they end is
`Driver.Ends`: with all commands executed, at the first one that fails, or at the first failure of the test's own.

A driver is steady when no failure to come is transient and no switch will fail; it stays so whatever it executes. The
driver of a plan without transient failures is steady (`steady_build`). Switches leave no trace in it but in the journal:
`quiet` is the driver without them, and it does the same deeds.
-/
import TestTrail.Plan.Run
import TestTrail.Proofs.Calls.Attempts

namespace TestTrail

variable {α : Type}

/-! ## Deeds -/

/-- a command of the driver, or a failure of the test's own -/
inductive Deed where
  | perform (p : Primitive)
  | fail (text : String)
  deriving DecidableEq, Repr

namespace Call

mutual

/-- what a call comes to; an action is one command, other operations are the calls they hold -/
def deeds (registry : Registry) : Call → List Deed
  | operation target command children =>
    if isAction registry target.operation then
      [.perform ⟨command.getD target.operation, target.element, target.driverArgs⟩]
    else deedsIn registry children
  | composites batch => batch.flatMap fun c => c.primitives.map .perform
  | fail text => [.fail text]
  | _ => []

def deedsIn (registry : Registry) : List Call → List Deed
  | [] => []
  | c :: cs => c.deeds registry ++ deedsIn registry cs

end

end Call

/-- the entry of a primitive in the journal -/
def Primitive.entry (p : Primitive) : JournalEntry := .command p.command (p.element.map Element.label) p.args

namespace Driver

/-- the driver executes commands one after the other, all without a failure -/
inductive Executes : Driver → List Primitive → Driver → Prop where
  | nil (d : Driver) : Executes d [] d
  | cons {d next last : Driver} {p : Primitive} {ps : List Primitive} {answer : String}
      (hp : d.execute p.command p.element p.args = (.ok answer, next)) (hps : Executes next ps last) :
      Executes d (p :: ps) last

/-- How deeds end, and the commands executed up to there: all of them, or those up to the first one that fails, or those
before the first failure of the test's own. -/
inductive Ends (d : Driver) (deeds : List Deed) : List Primitive → Outcome Unit → Prop where
  | all {done : List Primitive} {last : Driver} (hdeeds : deeds = done.map .perform) (hdone : Executes d done last) :
      Ends d deeds done (.ok ())
  | commandFails {done : List Primitive} {p : Primitive} {rest : List Deed} {last refusing : Driver} {f : Failure}
      (hdeeds : deeds = done.map .perform ++ .perform p :: rest) (hdone : Executes d done last)
      (hp : last.execute p.command p.element p.args = (.error f, refusing)) : Ends d deeds (done ++ [p]) (.failed f)
  | testFails {done : List Primitive} {text : String} {rest : List Deed} {last : Driver}
      (hdeeds : deeds = done.map .perform ++ .fail text :: rest) (hdone : Executes d done last) :
      Ends d deeds done (.failed ⟨.assertion, text⟩)

/-- does deeds until one fails -/
def carryOut : List Deed → Driver → Outcome Unit × Driver
  | [], d => (.ok (), d)
  | .fail text :: _, d => (.failed ⟨.assertion, text⟩, d)
  | .perform p :: deeds, d =>
    match d.execute p.command p.element p.args with
    | (.ok _, d) => carryOut deeds d
    | (.error f, d) => (.failed f, d)

theorem carryOut_append (deeds more : List Deed) (d : Driver) :
    carryOut (deeds ++ more) d =
      match carryOut deeds d with
      | (.ok _, d) => carryOut more d
      | (outcome, d) => (outcome, d) := by
  induction deeds generalizing d with
  | nil => rfl
  | cons deed deeds ih =>
    cases deed with
    | fail text => rfl
    | perform p =>
      simp only [List.cons_append, carryOut]
      rcases d.execute p.command p.element p.args with ⟨f | answer, next⟩
      · rfl
      · exact ih next

/-- a command that succeeds, and then deeds that end -/
theorem Ends.cons {d next : Driver} {p : Primitive} {answer : String} {deeds : List Deed} {executed : List Primitive}
    {outcome : Outcome Unit} (h : Ends next deeds executed outcome)
    (hp : d.execute p.command p.element p.args = (.ok answer, next)) :
    Ends d (.perform p :: deeds) (p :: executed) outcome := by
  cases h with
  | all hdeeds hdone => exact .all (by rw [hdeeds]; rfl) (.cons hp hdone)
  | commandFails hdeeds hdone hf => exact .commandFails (by rw [hdeeds]; rfl) (.cons hp hdone) hf
  | testFails hdeeds hdone => exact .testFails (by rw [hdeeds]; rfl) (.cons hp hdone)

theorem commands_execute (d : Driver) (p : Primitive) :
    (d.execute p.command p.element p.args).2.commands = d.commands ++ [p.command] := by
  simp [execute, note, commands]

/-- what is carried out ends as deeds end, and the executed commands are new in the journal -/
theorem ends_carryOut (deeds : List Deed) (d : Driver) :
    ∃ executed, Ends d deeds executed (carryOut deeds d).1 ∧
      (carryOut deeds d).2.commands = d.commands ++ executed.map Primitive.command := by
  induction deeds generalizing d with
  | nil => exact ⟨[], .all rfl (.nil d), by simp [carryOut]⟩
  | cons deed deeds ih =>
    cases deed with
    | fail text =>
      have hdeeds : Deed.fail text :: deeds = [].map .perform ++ .fail text :: deeds := rfl
      exact ⟨[], .testFails hdeeds (.nil d), by simp [carryOut]⟩
    | perform p =>
      have hcommands := commands_execute d p
      rw [carryOut]
      rcases hp : d.execute p.command p.element p.args with ⟨f | answer, next⟩
      · rw [hp] at hcommands
        have hdeeds : Deed.perform p :: deeds = [].map .perform ++ .perform p :: deeds := rfl
        exact ⟨[p], .commandFails hdeeds (.nil d) hp, hcommands⟩
      · rw [hp] at hcommands
        obtain ⟨executed, hends, hmore⟩ := ih next
        exact ⟨p :: executed, hends.cons hp, by simp [hmore, hcommands]⟩

end Driver

/-! ## Drivers without transient failures -/

/-- no failure to come is transient, and no switch will fail -/
structure Driver.Steady (d : Driver) : Prop where
  queued : ∀ q ∈ d.queued, q.failure.transient = false
  permanent : ∀ e ∈ d.permanent, e.2.transient = false
  content : d.contentScript = []
  frames : d.frameScript = []

def JournalEntry.isCommand : JournalEntry → Bool
  | .command .. => true
  | _ => false

theorem Keyed.mem_of_get? {t : Keyed α} {name : String} {value : α} (h : t.get? name = some value) :
    (name, value) ∈ t := by
  induction t with
  | nil => cases h
  | cons e t ih =>
    rw [get?] at h
    split at h
    · rename_i hname
      cases h
      exact List.mem_cons.2 (Or.inl (by rw [← hname]))
    · exact List.mem_cons_of_mem e (ih h)

theorem Keyed.mem_set {t : Keyed α} {name : String} {value : α} {e : String × α} (h : e ∈ t.set name value) :
    e.2 = value ∨ e ∈ t := by
  induction t with
  | nil =>
    rw [set, List.mem_singleton] at h
    exact Or.inl (by rw [h])
  | cons x t ih =>
    rw [set] at h
    split at h
    · rcases List.mem_cons.1 h with rfl | h
      · exact Or.inl rfl
      · exact Or.inr (List.mem_cons_of_mem x h)
    · rcases List.mem_cons.1 h with rfl | h
      · exact Or.inr List.mem_cons_self
      · exact (ih h).imp_right (List.mem_cons_of_mem x)

namespace Driver

variable {d : Driver}

theorem takeQueued_all {p : Failure → Prop} {command : String} {queue rest : List QueuedFailure} {f : Failure}
    (h : takeQueued command queue = some (f, rest)) (hqueue : ∀ q ∈ queue, p q.failure) :
    p f ∧ ∀ q ∈ rest, p q.failure := by
  induction queue generalizing rest with
  | nil => cases h
  | cons q queue ih =>
    rw [List.forall_mem_cons] at hqueue
    rw [takeQueued] at h
    split at h
    · cases h
      exact ⟨hqueue.1, List.forall_mem_cons.2 ⟨hqueue.1, hqueue.2⟩⟩
    · obtain ⟨⟨f', rest'⟩, htaken, heq⟩ := Option.map_eq_some_iff.1 h
      cases heq
      obtain ⟨hf, hrest⟩ := ih htaken hqueue.2
      exact ⟨hf, List.forall_mem_cons.2 ⟨hqueue.1, hrest⟩⟩

/-- a failed command failed for good, and later ones will -/
theorem Steady.execute (h : d.Steady) (command : String) (element : Option Element) (args : List String) :
    (d.execute command element args).2.Steady ∧
      ∀ f, (d.execute command element args).1 = .error f → f.transient = false := by
  unfold Driver.execute answer
  cases htaken : takeQueued command d.queued with
  | some taken =>
    obtain ⟨hf, hrest⟩ := takeQueued_all (p := fun f => f.transient = false) htaken h.queued
    exact ⟨⟨hrest, h.permanent, h.content, h.frames⟩, fun f hfailed => by cases hfailed; exact hf⟩
  | none =>
    have hsteady : ∀ e, { d.note e with queued := d.queued }.Steady := fun _ =>
      ⟨h.queued, h.permanent, h.content, h.frames⟩
    cases hpermanent : d.permanent.get? command with
    | some f =>
      refine ⟨hsteady _, fun g hfailed => ?_⟩
      cases hfailed
      exact h.permanent _ (Keyed.mem_of_get? hpermanent)
    | none => exact ⟨hsteady _, fun f hfailed => by cases hfailed⟩

theorem Steady.carryOut (h : d.Steady) (deeds : List Deed) :
    (carryOut deeds d).2.Steady ∧ (Driver.carryOut deeds d).1.isTransient = false := by
  induction deeds generalizing d with
  | nil => exact ⟨h, rfl⟩
  | cons deed deeds ih =>
    cases deed with
    | fail text => exact ⟨h, rfl⟩
    | perform p =>
      obtain ⟨hsteady, hfailed⟩ := h.execute p.command p.element p.args
      rw [Driver.carryOut]
      rcases hp : d.execute p.command p.element p.args with ⟨f | answer, next⟩ <;> rw [hp] at hsteady hfailed
      · exact ⟨hsteady, hfailed f rfl⟩
      · exact ih hsteady

/-! ## Switches -/

/-- the driver without the switches in its journal -/
def quiet (d : Driver) : Driver := { d with journal := d.journal.filter JournalEntry.isCommand }

theorem steady_quiet : d.quiet.Steady ↔ d.Steady :=
  ⟨fun h => ⟨h.queued, h.permanent, h.content, h.frames⟩, fun h => ⟨h.queued, h.permanent, h.content, h.frames⟩⟩

theorem commands_quiet (d : Driver) : d.quiet.commands = d.commands := by
  unfold commands quiet
  rw [List.filterMap_filter]
  congr 1
  funext e
  cases e <;> rfl

theorem quiet_execute (d : Driver) (command : String) (element : Option Element) (args : List String) :
    d.quiet.execute command element args =
      ((d.execute command element args).1, (d.execute command element args).2.quiet) := by
  simp [execute, answer, quiet, note, List.filter_cons, JournalEntry.isCommand]

end Driver

theorem FailurePlan.steady_addTo {f : FailurePlan} (hf : f.failure.transient = false) {d : Driver} (h : d.Steady) :
    (f.addTo d).Steady ∧ (f.addTo d).journal = d.journal := by
  unfold FailurePlan.addTo
  cases f.times with
  | some times =>
    refine ⟨⟨fun q hq => ?_, h.permanent, h.content, h.frames⟩, rfl⟩
    rcases List.mem_append.1 hq with hq | hq
    · exact h.queued q hq
    · rw [List.mem_singleton.1 hq]
      exact hf
  | none =>
    refine ⟨⟨h.queued, fun e he => ?_, h.content, h.frames⟩, rfl⟩
    rcases Keyed.mem_set he with hvalue | he
    · rw [hvalue]
      exact hf
    · exact h.permanent e he

theorem steady_foldl {failures : List FailurePlan} (hfailures : ∀ f ∈ failures, f.failure.transient = false)
    {d : Driver} (h : d.Steady) :
    (failures.foldl (fun d f => f.addTo d) d).Steady ∧
      (failures.foldl (fun d f => f.addTo d) d).journal = d.journal := by
  induction failures generalizing d with
  | nil => exact ⟨h, rfl⟩
  | cons f failures ih =>
    rw [List.forall_mem_cons] at hfailures
    obtain ⟨hsteady, hjournal⟩ := FailurePlan.steady_addTo hfailures.1 h
    obtain ⟨hall, hsame⟩ := ih hfailures.2 hsteady
    exact ⟨hall, hsame.trans hjournal⟩

/-- the driver of a plan without transient failures -/
theorem DriverPlan.steady_build {p : DriverPlan} (h : ∀ f ∈ p.failures, f.failure.transient = false)
    (attempt : UInt32) : (p.build attempt).Steady ∧ (p.build attempt).journal = [] := by
  refine steady_foldl (fun f hf => h f (List.mem_of_mem_filter hf)) ⟨?_, ?_, rfl, rfl⟩
  · exact fun q hq => absurd hq List.not_mem_nil
  · exact fun e he => absurd he List.not_mem_nil

end TestTrail
