/-
Failures of calls and how they are recorded.

A failure has one of twelve kinds and a message. Four kinds are transient: an action that fails with one of them may
succeed when it is tried again. `describe` is the full wording; `recorded` is the form kept in step trees and reports, a
tag and the wording.
-/

namespace TestTrail

inductive FailureKind where
  | notFound
  | stale
  | timeout
  | unreachable
  | unhandledAlert
  | driver
  | assertion
  | application
  | scenario
  | configuration
  | dataset
  | gridNodeUnavailable
  deriving DecidableEq, Repr

namespace FailureKind

def all : List FailureKind :=
  [notFound, stale, timeout, unreachable, unhandledAlert, driver, assertion, application, scenario, configuration,
    dataset, gridNodeUnavailable]

/-- the tag used in plans and reports -/
def tag : FailureKind → String
  | notFound => "not_found"
  | stale => "stale"
  | timeout => "timeout"
  | unreachable => "unreachable"
  | unhandledAlert => "unhandled_alert"
  | driver => "driver"
  | assertion => "assertion"
  | application => "application"
  | scenario => "scenario"
  | configuration => "configuration"
  | dataset => "dataset"
  | gridNodeUnavailable => "grid_node_unavailable"

/-- the words in front of the message -/
def heading : FailureKind → String
  | notFound => "element not found"
  | stale => "stale element reference"
  | timeout => "timed out"
  | unreachable => "browser unreachable"
  | unhandledAlert => "unexpected alert open"
  | driver => "driver error"
  | assertion => "assertion failed"
  | application => "application error"
  | scenario => "scenario error"
  | configuration => "configuration error"
  | dataset => "dataset error"
  | gridNodeUnavailable => "no grid node available"

/-- the kind of a tag; an unknown tag is a driver failure -/
def ofTag (tag : String) : FailureKind := (all.find? fun k => k.tag == tag).getD driver

/-- may go away when the action is tried again -/
def transient : FailureKind → Bool
  | notFound | stale | timeout | unreachable => true
  | _ => false

theorem ofTag_tag (k : FailureKind) : ofTag k.tag = k := by cases k <;> decide

end FailureKind

structure Failure where
  kind : FailureKind
  message : String
  deriving DecidableEq, Repr

/-- a failure as kept in step trees and reports -/
structure RecordedFailure where
  kind : String
  message : String
  deriving DecidableEq, Repr

namespace Failure

def describe (f : Failure) : String := f.kind.heading ++ ": " ++ f.message

def transient (f : Failure) : Bool := f.kind.transient

def recorded (f : Failure) : RecordedFailure := ⟨f.kind.tag, f.describe⟩

end Failure

end TestTrail
