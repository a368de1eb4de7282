/-
Answering a request: the text printed, the complaint if there is one, the exit code, and the files left behind.

A run takes its settings from the environment and then from its options. The session is created before anything is run,
so its note is there even when the settings turn out to be invalid, and it is closed however the run ends. The exit code is
zero exactly when nothing failed. A run that ends with a crash prints nothing.
-/
import TestTrail.Argument.Reading
import TestTrail.CommandLine.Request
import TestTrail.Plan.File
import TestTrail.Plan.Suite
import TestTrail.Session

namespace TestTrail.CommandLine

open TestTrail.Text

/-- what a program finds when it starts -/
structure Surroundings where
  environment : Keyed String
  store : Store
  now : Timestamp
  process : Nat
  clock : Clock

structure Answer where
  code : UInt8
  printed : String := ""
  complaint : Option String := none
  store : Store

def line (s : String) : String := s ++ "\n"

def overviewLines : List String :=
  ["Step Harness - step recording, action replay and test retry for UI tests", "",
    "Usage: step-harness <COMMAND>", "", "Commands:", "  run     Execute a JSON test plan against the mock driver",
    "  render  Render a step name from a template and arguments", "", "Run with --help for more information."]

def overview : String := String.join (overviewLines.map line)

/-- the operation whose step is named -/
def RenderRequest.operation (r : RenderRequest) : Operation :=
  let op := Operation.ofKind r.id .step
  let op := match r.template with
    | some template => op.withTemplate template
    | none => op
  r.masked.foldl Operation.masking op

/-- the arguments, or the first text that is none -/
def readArgs : List String → Except String (List Arg)
  | [] => .ok []
  | raw :: rest =>
    match Arg.ofText? raw, readArgs rest with
    | none, _ => .error (Arg.complaint raw)
    | some a, .ok args => .ok (a :: args)
    | some _, .error e => .error e

def RenderRequest.answer (r : RenderRequest) (s : Surroundings) : Answer :=
  let settings := Settings.ofEnvironment (Keyed.get? s.environment)
  match readArgs r.args with
  | .error e => { code := 1, complaint := some (Quoted.encode e), store := s.store }
  | .ok args =>
    { code := 0, printed := line (Naming.name (!r.noMask && settings.maskPassword) r.operation none args)
      store := s.store }

namespace RunRequest

def settings (r : RunRequest) (s : Surroundings) : Settings :=
  let settings := Settings.ofEnvironment (Keyed.get? s.environment)
  { settings with
    replayTimeout := r.replayTimeout.getD settings.replayTimeout
    testRetryCount := r.retry.getD settings.testRetryCount }

def session (r : RunRequest) (settings : Settings) (plan : Plan) (s : Surroundings) : Session :=
  match r.output with
  | some dir => .inDirectory dir s.now s.process
  | none => (Session.named settings.outputDir plan.context s.now).keeping r.keep

/-- the text of a report -/
def printed (r : RunRequest) (session : Session) (report : ContextReport) : String :=
  if r.json then line report.toJson.pretty
  else
    String.join (report.lines.map line) ++
      (if session.keep then "\n" ++ line ("Report: " ++ session.reportPath report.context) else "")

/-- the exit code of a program that crashed -/
def crashCode : UInt8 := 101

/-- an ending before there is a report -/
def stopped (p : Problem) (store : Store) : Answer := { code := 1, complaint := some p.complaint, store := store }

/-- the run inside a session that was created -/
def answerIn (r : RunRequest) (settings : Settings) (plan : Plan) (session : Session) (s : Surroundings)
    (store : Store) : Answer :=
  let setup : SuiteSetup := ⟨settings, plan.registry, plan.context, some session.dir⟩
  match setup.run (plan.selected settings.scenario r.tests) ⟨s.clock, s.now, store⟩ with
  | .error p => stopped p (session.close store)
  | .ok result =>
    match result.report with
    | .error _ => { code := crashCode, store := session.close result.env.store }
    | .ok report =>
      match session.writeReport report result.env.store with
      | (some e, store) => stopped (.file e) (session.close store)
      | (none, store) =>
        { code := if report.success then 0 else 1, printed := r.printed session report
          store := session.close store }

def answer (r : RunRequest) (s : Surroundings) : Answer :=
  let settings := r.settings s
  match Plan.ofFile s.store r.plan with
  | .error p => stopped p s.store
  | .ok plan =>
    let session := r.session settings plan s
    match session.create s.now s.store with
    | (some e, store) => stopped (.file e) (session.close store)
    | (none, store) => r.answerIn settings plan session s store

end RunRequest

def Request.answer (r : Request) (s : Surroundings) : Answer :=
  match r with
  | overview => { code := 0, printed := CommandLine.overview, store := s.store }
  | run r => r.answer s
  | render r => r.answer s

end TestTrail.CommandLine
