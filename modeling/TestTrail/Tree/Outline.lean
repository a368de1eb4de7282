/-
The outline of a step tree: one line per node and per attached file.

A line starts with two blanks per level and a marker: `x` for a failed step or action, `-` for any other, and for messages
`!` for warnings, `E` for errors, `i` for the rest. The name follows, and an exception in brackets. Files of a step come
before its children, indented like them.
-/
import TestTrail.Tree

namespace TestTrail

/-- what the first sign of a line tells about a node -/
inductive Marker where
  | passed
  | failed
  | warning
  | error
  | info
  deriving DecidableEq, Repr

namespace Marker

def sign : Marker → String
  | passed => "-"
  | failed => "x"
  | warning => "!"
  | error => "E"
  | info => "i"

end Marker

namespace Node

def marker : Node → Marker
  | message m => match m.level with
    | .warning => .warning
    | .error => .error
    | .info | .log => .info
  | n => if n.failed then .failed else .passed

def indent (depth : Nat) : String := "".pushn ' ' (2 * depth)

def headLine (depth : Nat) (n : Node) : String :=
  indent depth ++ n.marker.sign ++ " " ++ n.name ++
    match n.exception with
    | some e => " [" ++ e.message ++ "]"
    | none => ""

def fileLine (depth : Nat) (a : Attachment) : String := indent depth ++ "  @ " ++ a.label ++ ": " ++ a.path

mutual

def outlineLines (depth : Nat) : Node → List String
  | step h cs =>
    headLine depth (step h cs) :: (h.attachments.map (fileLine depth) ++ forestLines (depth + 1) cs)
  | action a => [headLine depth (action a)]
  | message m => [headLine depth (message m)]

def forestLines (depth : Nat) : List Node → List String
  | [] => []
  | n :: ns => outlineLines depth n ++ forestLines depth ns

end

/-- the outline of a forest, every line closed by a line feed -/
def outline (nodes : List Node) : String := String.join ((forestLines 0 nodes).map (· ++ "\n"))

end Node

end TestTrail
