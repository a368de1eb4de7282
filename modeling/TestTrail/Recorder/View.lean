/-
What can be seen of a recorder from outside, in JSON: how many steps are open and how many roots are closed, the innermost
and the outermost open step, the last closed ones, and the outline of the closed roots.
-/
import TestTrail.Recorder
import TestTrail.Report.Timeless

namespace TestTrail.Recorder

def counts (r : Recorder) : List (String × Json) :=
  [("depth", .int r.depth), ("roots", .int r.roots.length)]

def nameJson (s : Option Step) : Json := .ofOption (s.map fun s => s.head.name)

def rootJson (s : Step) : Json :=
  .arr [.str s.head.name, .bool s.head.failed, (s.head.position.map fun n => Json.int (Int.ofNat n)).getD .null]

def view (r : Recorder) : List (String × Json) :=
  r.counts ++
    [("current", (r.current?.map Step.timelessJson).getD .null), ("root", (r.currentRoot?.map rootJson).getD .null),
      ("previous", nameJson r.previous?), ("current_or_previous", nameJson r.currentOrPrevious?),
      ("last_test_step", nameJson r.lastTestStep?), ("outline", .str (Node.outline r.roots))]

end TestTrail.Recorder
