/-
Sessions: the directory in which the output of a run is kept.

A session has a directory of its own under a base, named after the clock, or uses a directory it is given. The directory
holds a note about the session and, per context, a directory with the screenshots and the report. Closing a session
removes its directory unless the session is kept; a directory that was given is always kept.
-/
import TestTrail.Json.Writer
import TestTrail.Report.Json
import TestTrail.Store

namespace TestTrail

open TestTrail.Text

structure Session where
  id : String
  dir : String
  keep : Bool
  deriving DecidableEq, Repr

namespace Session

/-- the id of a session without a name, from the clock and the number of the process -/
def unnamedId (now : Timestamp) (process : Nat) : String :=
  "session_" ++ toString (now.toEpoch.fdiv 1000000) ++ "_" ++ toString process

/-- a session without a name -/
def unnamed (base : String) (now : Timestamp) (process : Nat) : Session :=
  let id := unnamedId now process
  ⟨id, Path.join base id, false⟩

/-- a session with a name of its own -/
def named (base name : String) (now : Timestamp) : Session :=
  let id := Path.safeName name ++ "_" ++ now.stamp
  ⟨id, Path.join base id, false⟩

/-- a session in a given directory -/
def inDirectory (dir : String) (now : Timestamp) (process : Nat) : Session :=
  ⟨(Path.baseName? dir).getD (unnamedId now process), dir, true⟩

def keeping (s : Session) (keep : Bool) : Session := { s with keep := keep }

def reportFile : String := "report.json"

def noteFile : String := ".session.json"

/-- the directory of a context -/
def contextDirectory (s : Session) (context : String) : String := Path.join s.dir (Path.safeName context)

def reportPath (s : Session) (context : String) : String := Path.join (s.contextDirectory context) reportFile

/-- the note about the session -/
def note (s : Session) (now : Timestamp) : String :=
  (Json.obj [("created", .str now.writeWithOffset), ("id", .str s.id)]).pretty

/-- makes the directory and writes the note -/
def create (s : Session) (now : Timestamp) (store : Store) : Option FileError × Store :=
  store.writeInto s.dir (Path.join s.dir noteFile) (.text (s.note now))

/-- writes the report of a context to its place -/
def writeReport (s : Session) (report : ContextReport) (store : Store) : Option FileError × Store :=
  store.writeInto (s.contextDirectory report.context) (s.reportPath report.context) (.text report.toJson.pretty)

/-- what is left when the session ends -/
def close (s : Session) (store : Store) : Store := if s.keep then store else store.removeTree s.dir

end Session

end TestTrail
