/-
The program: what it finds around it goes into the request's answer, and the answer goes back to the outside.

Only the places on the way to the plan and to the output directory are looked at. Of the files in the answer those that
were not found before are written.
-/
import Std.Time.DateTime.Timestamp
import TestTrail.CommandLine.Answer
import TestTrail.Screen.Png

open TestTrail TestTrail.CommandLine TestTrail.Text

namespace TestTrail.Program

/-- the environment variables that are settings -/
def variableNames : List String :=
  ["STEP_HARNESS_REPLAY_TIMEOUT", "STEP_HARNESS_REPLAY_DELAY_MS", "STEP_HARNESS_MASK_PASSWORD",
    "STEP_HARNESS_OUTPUT_DIR", "STEP_HARNESS_TEST_RETRY_COUNT", "STEP_HARNESS_MANUAL_STEPS",
    "STEP_HARNESS_CUCUMBER_TAGS", "STEP_HARNESS_CUCUMBER_TESTS"]

def environment : IO (Keyed String) :=
  variableNames.filterMapM fun name => do return (← IO.getEnv name).map fun value => (name, value)

/-- the full path of a place -/
def placeOf (route : Path.Route) : String := "/" ++ "/".intercalate route

/-- adds what stands at one place to a store -/
def look (store : Store) (route : Path.Route) : IO Store := do
  if store.isTaken route then return store
  let place := (← IO.currentDir) / placeOf route
  if ← place.isDir then return { store with directories := store.directories ++ [route] }
  else if ← place.pathExists then
    let content ← IO.FS.readBinFile place
    return { store with files := store.files ++ [(route, .bytes content.toList)] }
  else return store

/-- the places a path goes through -/
def placesFrom (here : Path.Route) : List String → List Path.Route
  | [] => []
  | step :: rest =>
    let there := if Path.isIdle step then here else if step = ".." then here.dropLast else here ++ [step]
    there :: placesFrom there rest

/-- adds the places on the way to a path -/
def lookAlong (store : Store) (path : String) : IO Store :=
  (placesFrom (store.origin path) (Path.steps path)).foldlM look store

/-- the paths that a request is about -/
def pathsOf (request : Request) (environment : Keyed String) : List String :=
  match request with
  | .run r => [r.plan, r.output.getD (Settings.ofEnvironment (Keyed.get? environment)).outputDir]
  | _ => []

def now : IO TestTrail.Timestamp := do
  return TestTrail.Timestamp.ofEpoch (← Std.Time.Timestamp.now).toNanosecondsSinceUnixEpoch.val

/-- the number of the process, where the system tells it -/
def processNumber : IO Nat :=
  try return ((Path.baseName? (toString (← IO.FS.realPath "/proc/self"))).bind String.toNat?).getD 0
  catch _ => return 0

def writeContent (path : String) : Content → IO Unit
  | .text s => IO.FS.writeFile path s
  | .bytes data => IO.FS.writeBinFile path ⟨data.toArray⟩
  | .image screen => match Screen.Png.encode screen with
    | .ok bytes => IO.FS.writeBinFile path ⟨bytes.toArray⟩
    | .error f => throw (IO.userError f.describe)

/-- writes what a store has and another had not -/
def writeNew (before after : Store) : IO Unit := do
  for route in after.directories do
    unless before.directories.contains route do IO.FS.createDirAll (placeOf route)
  for (route, content) in after.files do
    unless before.files.contains (route, content) do writeContent (placeOf route) content

def answer (request : Request) : IO UInt32 := do
  let environment ← environment
  let here := toString (← IO.currentDir)
  let store ← (here :: pathsOf request environment).foldlM lookAlong { start := Path.parts here }
  let surroundings : Surroundings :=
    { environment := environment, store := store, now := ← now, process := ← processNumber
      clock := Clock.steady (← IO.monoNanosNow) }
  let answer := request.answer surroundings
  writeNew store answer.store
  IO.print answer.printed
  match answer.complaint with
  | some complaint => IO.eprintln ("Error: " ++ complaint)
  | none => pure ()
  return answer.code.toUInt32

end TestTrail.Program

def main (args : List String) : IO UInt32 := do
  match Request.read args with
  | .ok request => Program.answer request
  | .error .help => do
    IO.print overview
    return 0
  | .error .misuse => do
    IO.eprintln "Usage: step-harness <COMMAND>"
    return 2
