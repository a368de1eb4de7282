/-
Settings of a suite and where they come from.

Every setting has a default; an environment variable replaces it when its text can be read. Numbers and words may have
blanks around them, truth values are written in one of four ways each, filters are comma lists. A suite does not start
without an output directory or with a replay delay of zero.
-/
import TestTrail.Clock
import TestTrail.Problem
import TestTrail.Text.CommaList
import TestTrail.Text.Digits
import TestTrail.Word

namespace TestTrail

open TestTrail.Text

/-- which scenarios to run -/
structure ScenarioFilter where
  tags : List String := []
  tests : List String := []
  deriving DecidableEq, Repr

structure Settings where
  /-- seconds until a replayed action gives up -/
  replayTimeout : Nat := 30
  /-- milliseconds between two attempts -/
  replayDelayMs : Nat := 100
  maskPassword : Bool := true
  outputDir : String := "/tmp/step-harness"
  testRetryCount : UInt32 := 2
  manualTestSteps : Bool := false
  scenario : ScenarioFilter := {}
  deriving DecidableEq, Repr

namespace ScenarioFilter

/-- a tag without its at signs -/
def bareTag (tag : String) : List Char := tag.toList.dropWhile (· == '@')

/-- whether a scenario passes: by name, and by one of its tags; an empty list lets everything pass -/
def selects (f : ScenarioFilter) (name : String) (tags : List String) : Bool :=
  (f.tests.isEmpty || f.tests.contains name) &&
    (f.tags.isEmpty || tags.any fun tag => f.tags.any fun wanted => bareTag wanted == bareTag tag)

end ScenarioFilter

namespace Settings

/-- a truth value in one of its four spellings, in any case -/
def truth? (s : String) : Option Bool :=
  let word := String.ofList ((trimChars s.toList).map Char.toLower)
  if ["true", "1", "yes", "on"].contains word then some true
  else if ["false", "0", "no", "off"].contains word then some false
  else none

def ofEnvironment (env : String → Option String) : Settings :=
  let number (name : String) (bound : Nat) : Option Nat := (env name).bind fun s => unsigned? bound (trim s)
  let truth (name : String) : Option Bool := (env name).bind truth?
  let list (name : String) : List String := ((env name).map CommaList.entries).getD []
  let default : Settings := {}
  { replayTimeout := (number "STEP_HARNESS_REPLAY_TIMEOUT" Word.limit64).getD default.replayTimeout
    replayDelayMs := (number "STEP_HARNESS_REPLAY_DELAY_MS" Word.limit64).getD default.replayDelayMs
    maskPassword := (truth "STEP_HARNESS_MASK_PASSWORD").getD default.maskPassword
    outputDir := (env "STEP_HARNESS_OUTPUT_DIR").getD default.outputDir
    testRetryCount :=
      ((number "STEP_HARNESS_TEST_RETRY_COUNT" Word.limit32).map UInt32.ofNat).getD default.testRetryCount
    manualTestSteps := (truth "STEP_HARNESS_MANUAL_STEPS").getD default.manualTestSteps
    scenario := ⟨list "STEP_HARNESS_CUCUMBER_TAGS", list "STEP_HARNESS_CUCUMBER_TESTS"⟩ }

/-- what keeps a suite with these settings from starting -/
def problem? (s : Settings) : Option Problem :=
  if s.outputDir = "" then some .noOutputDirectory
  else if s.replayDelayMs = 0 then some .noReplayDelay
  else none

def replayTimeoutNanos (s : Settings) : Nat := s.replayTimeout * nanosPerSecond

def replayDelayNanos (s : Settings) : Nat := s.replayDelayMs * nanosPerMilli

end Settings

end TestTrail
