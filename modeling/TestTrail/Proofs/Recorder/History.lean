/-
Histories of a recorder: operations, time that passes, checkpoints that are taken, and rollbacks to them.

A `Tape` is a recorder with the checkpoints taken so far. A rollback names its checkpoint by number, so checkpoints may
be used in any order and more than once. `Tape.run` performs a history. Steps are opened as callers hand them over, with
nothing recorded yet (`Step.Fresh`).

A history of `Recording` acts goes forward only: it never goes back to a checkpoint, and the record is not handed over
before its end. `Tape.gather` collects along a history what each operation has to do with.
-/
import TestTrail.Proofs.Recorder.Operations
import TestTrail.Recorder.Op

namespace TestTrail

/-- a step as callers hand it over: no children, no failure, no files, no number -/
structure Step.Fresh (s : Step) : Prop where
  children : s.children = []
  failed : s.head.failed = false
  exception : s.head.exception = none
  attachments : s.head.attachments = []
  position : s.head.position = none

/-- a step without anything recorded -/
abbrev FreshStep := { s : Step // s.Fresh }

theorem Step.fresh_new (name actionId : String) (now : Timestamp) : (Step.new name actionId now).Fresh :=
  ⟨rfl, rfl, rfl, rfl, rfl⟩

namespace Recorder

/-- the recorder of a new test -/
def fresh (maskEnabled : Bool) (now : Timestamp) : Recorder := { maskEnabled := maskEnabled, now := now }

inductive Act where
  | op (o : Op)
  /-- time passes -/
  | wait (time : Timestamp)
  | checkpoint
  /-- back to a checkpoint, by its number -/
  | rollback (n : Nat)

structure Tape where
  recorder : Recorder
  /-- the checkpoints taken so far -/
  marks : List Checkpoint := []

namespace Tape

def step (t : Tape) : Act → Tape
  | .op o => { t with recorder := t.recorder.apply o }
  | .wait time => { t with recorder := t.recorder.moveTo time }
  | .checkpoint => { t with marks := t.marks ++ [t.recorder.checkpoint] }
  | .rollback n =>
    match t.marks[n]? with
    | some c => { t with recorder := t.recorder.rollback c }
    | none => t

def run (t : Tape) (acts : List Act) : Tape := acts.foldl step t

theorem run_nil (t : Tape) : run t [] = t := rfl

theorem run_cons (t : Tape) (a : Act) (acts : List Act) : run t (a :: acts) = run (step t a) acts := rfl

theorem run_append (t : Tape) (acts more : List Act) : run t (acts ++ more) = run (run t acts) more := by
  simp [run, List.foldl_append]

/-- what `f` has for each operation of a history, in order -/
def gather {β : Type} (f : Recorder → Op → List β) : Tape → List Act → List β
  | _, [] => []
  | t, .op o :: acts => f t.recorder o ++ gather f (t.step (.op o)) acts
  | t, a :: acts => gather f (t.step a) acts

theorem gather_append {β : Type} (f : Recorder → Op → List β) (t : Tape) (acts more : List Act) :
    gather f t (acts ++ more) = gather f t acts ++ gather f (t.run acts) more := by
  induction acts generalizing t with
  | nil => rfl
  | cons a acts ih =>
    cases a with
    | op o =>
      rw [List.cons_append, gather, gather, ih, List.append_assoc]
      rfl
    | wait time => exact ih _
    | checkpoint => exact ih _
    | rollback n => exact ih _

end Tape

/-- an operation of a test that goes on; steps are opened fresh -/
def Op.Recording : Op → Prop
  | .openStep s => s.Fresh
  | .takeSteps => False
  | _ => True

/-- operations of a test that goes on, and time that passes -/
def Act.Recording : Act → Prop
  | .op o => o.Recording
  | .wait _ => True
  | .checkpoint | .rollback _ => False

/-- induction over a history that goes forward only: an operation or time that passes, and then the rest -/
theorem Tape.recording_induction {motive : Tape → List Act → Prop} (nil : ∀ t, motive t [])
    (op : ∀ t o acts, o.Recording → motive (t.step (.op o)) acts → motive t (.op o :: acts))
    (wait : ∀ t time acts, motive (t.step (.wait time)) acts → motive t (.wait time :: acts)) (t : Tape)
    {acts : List Act} (h : ∀ a ∈ acts, a.Recording) : motive t acts := by
  induction acts generalizing t with
  | nil => exact nil t
  | cons a acts ih =>
    have hrest := ih (t.step a) fun b hb => h b (List.mem_cons_of_mem a hb)
    have ha := h a List.mem_cons_self
    cases a with
    | op o => exact op t o acts ha hrest
    | wait time => exact wait t time acts hrest
    | checkpoint => exact ha.elim
    | rollback n => exact ha.elim

end Recorder

end TestTrail
