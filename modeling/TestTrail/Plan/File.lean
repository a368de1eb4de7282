/-
Plans in files: the text of the file has to write a plan, and the plan has to be valid.
-/
import TestTrail.Plan.Json
import TestTrail.Store

namespace TestTrail.Plan

def ofFile (store : Store) (path : String) : Except Problem Plan :=
  match store.readText path with
  | .error e => .error (.file e)
  | .ok text =>
    match ofText? text with
    | none => .error .malformed
    | some plan =>
      match plan.problem? with
      | some p => .error p
      | none => .ok plan

end TestTrail.Plan
