/-
Settings in JSON. Read, every member replaces a default; the filters are not among them.
-/
import TestTrail.Json.Lenient
import TestTrail.Settings

namespace TestTrail

namespace ScenarioFilter

def members (f : ScenarioFilter) : List (String × Json) :=
  [("cucumber_tags", .strings f.tags), ("cucumber_tests", .strings f.tests)]

end ScenarioFilter

namespace Settings

def toJson (s : Settings) : Json :=
  .obj
    ([("replay_timeout", .int s.replayTimeout), ("replay_delay_ms", .int s.replayDelayMs),
        ("mask_password", .bool s.maskPassword), ("output_dir", .str s.outputDir),
        ("test_retry_count", .int s.testRetryCount.toNat), ("manual_test_steps", .bool s.manualTestSteps)] ++
      s.scenario.members)

def ofJson (j : Json) : Settings :=
  let d : Settings := {}
  { replayTimeout := (j.natAt? "replay_timeout").getD d.replayTimeout
    replayDelayMs := (j.natAt? "replay_delay_ms").getD d.replayDelayMs
    maskPassword := j.flagAt "mask_password" d.maskPassword
    outputDir := (j.textAt? "output_dir").getD d.outputDir
    testRetryCount := ((j.natAt? "test_retry_count").map UInt32.ofNat).getD d.testRetryCount
    manualTestSteps := j.flagAt "manual_test_steps" d.manualTestSteps }

end Settings

end TestTrail
