/-
The scripted driver: a browser that does what a test needs and keeps a journal.

A command fails while failures are queued for it, then always if a permanent failure is set for it, and answers otherwise.
Switching to the top document, switching to a frame and taking a screenshot follow lists of failures to come; behind the
end of a list they succeed. Every command and every switch is in the journal, failed ones included.
-/
import TestTrail.Element
import TestTrail.Failure
import TestTrail.Keyed
import TestTrail.Screen.Framebuffer

namespace TestTrail

open TestTrail.Screen

/-- a failure that the next executions of a command have -/
structure QueuedFailure where
  command : String
  failure : Failure
  times : Nat
  deriving DecidableEq, Repr

inductive JournalEntry where
  | command (name : String) (element : Option String) (args : List String)
  | defaultContent
  | frame (name : String)
  deriving DecidableEq, Repr

structure Driver where
  title : String := "mock page"
  /-- how long a command takes, in nanoseconds -/
  latency : Nat := 0
  queued : List QueuedFailure := []
  permanent : Keyed Failure := []
  responses : Keyed String := []
  contentScript : List (Option Failure) := []
  frameScript : List (Option Failure) := []
  screenshotScript : List (Option Failure) := []
  journal : List JournalEntry := []
  deriving DecidableEq

namespace Driver

def name : String := "mock"

/-! ## Scripts -/

/-- the next executions of a command fail, after those that fail already -/
def failNext (d : Driver) (command : String) (times : Nat) (f : Failure) : Driver :=
  { d with queued := d.queued ++ [⟨command, f, times⟩] }

/-- a command fails whenever nothing is queued for it -/
def alwaysFail (d : Driver) (command : String) (f : Failure) : Driver :=
  { d with permanent := d.permanent.set command f }

def respond (d : Driver) (command answer : String) : Driver :=
  { d with responses := d.responses.set command answer }

/-! ## Use -/

def note (d : Driver) (e : JournalEntry) : Driver := { d with journal := d.journal ++ [e] }

/-- takes the next queued failure of a command -/
def takeQueued (command : String) : List QueuedFailure → Option (Failure × List QueuedFailure)
  | [] => none
  | q :: rest =>
    if q.command = command ∧ 0 < q.times then some (q.failure, { q with times := q.times - 1 } :: rest)
    else (takeQueued command rest).map fun (f, rest) => (f, q :: rest)

/-- what a command answers, and the failures still queued -/
def answer (d : Driver) (command : String) : Except Failure String × List QueuedFailure :=
  match takeQueued command d.queued with
  | some (f, rest) => (.error f, rest)
  | none =>
    match d.permanent.get? command with
    | some f => (.error f, d.queued)
    | none => (.ok ((d.responses.get? command).getD ""), d.queued)

def execute (d : Driver) (command : String) (element : Option Element) (args : List String) :
    Except Failure String × Driver :=
  let (result, rest) := d.answer command
  (result, { d.note (.command command (element.map Element.label) args) with queued := rest })

/-- the next outcome of a script -/
def nextOutcome (script : List (Option Failure)) : Except Failure Unit :=
  match script with
  | some f :: _ => .error f
  | _ => .ok ()

def toDefaultContent (d : Driver) : Except Failure Unit × Driver :=
  (nextOutcome d.contentScript, { d.note .defaultContent with contentScript := d.contentScript.tail })

def toFrame (d : Driver) (frame : String) : Except Failure Unit × Driver :=
  (nextOutcome d.frameScript, { d.note (.frame frame) with frameScript := d.frameScript.tail })

/-- the commands of the journal, in order -/
def commands (d : Driver) : List String :=
  d.journal.filterMap fun
    | .command name _ _ => some name
    | _ => none

/-- how often a command was executed -/
def calls (d : Driver) (command : String) : Nat := d.commands.count command

/-- the screen: the title and the number of commands so far -/
def screen (d : Driver) : Framebuffer :=
  let ink : Color := ⟨230, 230, 230⟩
  let blank := Framebuffer.filled 320 64 ⟨32, 32, 48⟩
  (blank.drawText .basic 8 8 d.title ink).drawText .basic 8 24 (toString d.commands.length ++ " commands") ink

def screenshot (d : Driver) : Except Failure Framebuffer × Driver :=
  ((nextOutcome d.screenshotScript).map fun _ => d.screen, { d with screenshotScript := d.screenshotScript.tail })

end Driver

end TestTrail
