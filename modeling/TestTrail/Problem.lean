/-
What can be wrong with a suite before any test runs: its settings, its plan, or its files.

Every problem is a cause; `message` is its wording, `category` the group it belongs to, and `complaint` the form in which
the program prints it when it ends.
-/
import TestTrail.Text.Quoted

namespace TestTrail

open TestTrail.Text

/-- why a file could not be used -/
inductive FileError where
  | notFound
  | isADirectory
  | notADirectory
  | alreadyExists
  | invalidData
  | invalidInput
  | nameTooLong
  deriving DecidableEq, Repr

/-- the name of the cause in printed complaints -/
def FileError.label : FileError → String
  | notFound => "NotFound"
  | isADirectory => "IsADirectory"
  | notADirectory => "NotADirectory"
  | alreadyExists => "AlreadyExists"
  | invalidData => "InvalidData"
  | invalidInput => "InvalidInput"
  | nameTooLong => "InvalidFilename"

inductive Problem where
  | noOutputDirectory
  | noReplayDelay
  | undeclaredOperation (test id : String)
  | actionWithChildren (id test : String)
  | file (e : FileError)
  | malformed
  deriving DecidableEq, Repr

namespace Problem

inductive Category where
  | configuration
  | plan
  | file
  | serialization
  deriving DecidableEq, Repr

/-- the name of the group in printed complaints -/
def Category.label : Category → String
  | configuration => "Configuration"
  | plan => "Plan"
  | file => "Io"
  | serialization => "Serialization"

def category : Problem → Category
  | noOutputDirectory | noReplayDelay => .configuration
  | undeclaredOperation .. | actionWithChildren .. => .plan
  | file _ => .file
  | malformed => .serialization

/-- the cause alone -/
def detail : Problem → String
  | noOutputDirectory => "output directory must be set"
  | noReplayDelay => "replay delay must be greater than 0 ms"
  | undeclaredOperation test id => "test '" ++ test ++ "' calls undeclared operation '" ++ id ++ "'"
  | actionWithChildren id test => "action '" ++ id ++ "' in test '" ++ test ++ "' cannot have children"
  | file _ => "file error"
  | malformed => "malformed text"

def heading : Category → String
  | .configuration => "Configuration error"
  | .plan => "Plan error"
  | .file => "I/O error"
  | .serialization => "Serialization error"

def message (p : Problem) : String := heading p.category ++ ": " ++ p.detail

/-- the problem as the program ends with it -/
def complaint (p : Problem) : String :=
  match p with
  | file e => "Io(" ++ e.label ++ ")"
  | p => p.category.label ++ "(" ++ Quoted.encode p.detail ++ ")"

end Problem

end TestTrail
