/-
Recorder operations as data, so that histories are lists of them.

`apply` performs one operation, `run` a whole history. What an operation answers can be read off the recorder before it:
a close answers whether a step is open, a file whether it found a step, a secret whether it was long enough.
-/
import TestTrail.Recorder

namespace TestTrail.Recorder

inductive Op where
  | openStep (s : Step)
  | closeStep (outcome : Option Failure)
  | recordAction (a : Action)
  | recordMessage (text : String) (level : Level)
  | attachFile (a : Attachment)
  | failCurrent (failure : Option Failure)
  | addStep (name : String)
  | addSecret (value : String)
  | finish (failure : Option Failure) (screenshot : Option Attachment)
  | takeSteps

def apply (r : Recorder) : Op → Recorder
  | .openStep s => r.openStep s
  | .closeStep outcome => r.closeStep outcome
  | .recordAction a => r.recordAction a
  | .recordMessage text level => r.recordMessage text level
  | .attachFile a => r.attachFile a
  | .failCurrent failure => r.failCurrent failure
  | .addStep name => r.addStep name
  | .addSecret value => r.addSecret value
  | .finish failure screenshot => r.finish failure screenshot
  | .takeSteps => r.takeSteps.2

def run (r : Recorder) (ops : List Op) : Recorder := ops.foldl apply r

/-- the answer of an operation that answers yes or no -/
def answer (r : Recorder) : Op → Option Bool
  | .closeStep _ => some !r.openSteps.isEmpty
  | .attachFile a => some (r.attachFile? a).isSome
  | .addSecret value => some (acceptsSecret value)
  | _ => none

end TestTrail.Recorder
