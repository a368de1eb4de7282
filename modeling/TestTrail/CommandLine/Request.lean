/-
What a command line asks for.

`run` runs a test plan, `render` names a step, and no command at all asks for an overview. The name of a log filter may
stand in front of the command and among its options. Numbers are those of their settings, paths are not empty, and a list
of tests is split at its commas as it is.
-/
import TestTrail.CommandLine.Rules
import TestTrail.Text.Digits
import TestTrail.Text.Pieces
import TestTrail.Word

namespace TestTrail.CommandLine

open TestTrail.Text

structure RunRequest where
  plan : String
  output : Option String := none
  keep : Bool := false
  tests : List String := []
  replayTimeout : Option Nat := none
  retry : Option UInt32 := none
  json : Bool := false
  deriving DecidableEq, Repr

structure RenderRequest where
  id : String
  template : Option String := none
  args : List String := []
  masked : List String := []
  noMask : Bool := false
  deriving DecidableEq, Repr

inductive Request where
  | overview
  | run (r : RunRequest)
  | render (r : RenderRequest)
  deriving DecidableEq, Repr

def isPath (s : String) : Bool := s != ""

def seconds? (s : String) : Option Nat := unsigned? Word.limit64 s

/-- a count may have a sign; it has 32 bits -/
def count? (s : String) : Option UInt32 :=
  match signed? s with
  | some i => if 0 ≤ i.toInt ∧ i.toInt < 4294967296 then some (UInt32.ofNat i.toInt.toNat) else none
  | none => none

def anyText (_ : String) : Bool := true

def logRule : Rule := { name := "log-level", accepts := some anyText }

def runRules : List Rule :=
  [logRule, { name := "plan", letter := some 'p', accepts := some isPath },
    { name := "output", letter := some 'o', accepts := some isPath }, { name := "keep", letter := some 'k' },
    { name := "tests", letter := some 't', accepts := some anyText, repeatable := true },
    { name := "replay-timeout", accepts := some fun s => (seconds? s).isSome },
    { name := "retry", accepts := some fun s => (count? s).isSome }, { name := "json" }]

def renderRules : List Rule :=
  [logRule, { name := "id", letter := some 'i', accepts := some anyText },
    { name := "template", letter := some 't', accepts := some anyText },
    { name := "arg", letter := some 'a', accepts := some anyText, repeatable := true },
    { name := "mask", letter := some 'm', accepts := some anyText, repeatable := true }, { name := "no-mask" }]

/-- the options of a command that takes no plain words -/
def optionsOf (rules : List Rule) (words : List String) : Except Stop (List Given) :=
  match readOptions rules words with
  | .ok (given, []) => .ok given
  | .ok (_, _ :: _) => .error .misuse
  | .error stop => .error stop

/-- the tests of one list -/
def testNames (s : String) : List String := (pieces ',' s.toList).map String.ofList

def runRequest (given : List Given) : Except Stop Request :=
  match value? given "plan" with
  | none => .error .misuse
  | some plan =>
    .ok (.run
      { plan := plan, output := value? given "output", keep := isGiven given "keep"
        tests := (values given "tests").flatMap testNames
        replayTimeout := (value? given "replay-timeout").bind seconds?
        retry := (value? given "retry").bind count?, json := isGiven given "json" })

def renderRequest (given : List Given) : Except Stop Request :=
  match value? given "id" with
  | none => .error .misuse
  | some id =>
    .ok (.render
      { id := id, template := value? given "template", args := values given "arg", masked := values given "mask"
        noMask := isGiven given "no-mask" })

/-- the words behind `help` name at most one command -/
def helpFor : List String → Stop
  | [] => .help
  | [name] => if ["run", "render", "help"].contains name then .help else .misuse
  | _ => .misuse

def Request.read (words : List String) : Except Stop Request :=
  match readOptions [logRule] words with
  | .error stop => .error stop
  | .ok (_, []) => .ok .overview
  | .ok (_, command :: words) =>
    if command = "run" then (optionsOf runRules words).bind runRequest
    else if command = "render" then (optionsOf renderRules words).bind renderRequest
    else if command = "help" then .error (helpFor words)
    else .error .misuse

end TestTrail.CommandLine
