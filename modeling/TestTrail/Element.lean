/-
Page elements as calls name them: a label for people, a locator for the driver, and the frame the element lives in.
-/

namespace TestTrail

structure Element where
  label : String
  locator : String
  frame : Option String := none
  deriving DecidableEq, Repr

/-- label and locator, the form used in action names -/
def Element.describe (e : Element) : String := e.label ++ ", by=\x7b" ++ e.locator ++ "\x7d"

end TestTrail
