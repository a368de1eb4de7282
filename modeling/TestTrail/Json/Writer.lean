/-
Writing JSON text for people: two blanks per level, one member or item per line, and empty arrays and objects in short.

Strings escape quotes, backslashes and control characters, the usual ones by a letter, and keep everything else. A
floating point number that is not finite has no written form and becomes `null`.
-/
import TestTrail.Json

namespace TestTrail.Json

def hexLetter (n : Nat) : Char := if n < 10 then Char.ofNat (48 + n) else Char.ofNat (87 + n)

def escapeChar (c : Char) : List Char :=
  if c = '"' then ['\\', '"']
  else if c = '\\' then ['\\', '\\']
  else if c = '\x08' then ['\\', 'b']
  else if c = '\x0c' then ['\\', 'f']
  else if c = '\n' then ['\\', 'n']
  else if c = '\r' then ['\\', 'r']
  else if c = '\t' then ['\\', 't']
  else if c.toNat < 0x20 then ['\\', 'u', '0', '0', hexLetter (c.toNat / 16), hexLetter (c.toNat % 16)]
  else [c]

def quoted (s : String) : String := "\"" ++ String.ofList (s.toList.flatMap escapeChar) ++ "\""

def lineStart (level : Nat) : String := "\n" ++ "".pushn ' ' (2 * level)

mutual

/-- a value whose own line is `level` deep -/
def prettyAt (level : Nat) : Json → String
  | null => "null"
  | bool b => if b then "true" else "false"
  | int i => toString i
  | float x => if x.isFinite then x.json else "null"
  | str s => quoted s
  | unreadable => "null"
  | arr [] => "[]"
  | arr (j :: rest) =>
    "[" ++ lineStart (level + 1) ++ prettyAt (level + 1) j ++ prettyItems (level + 1) rest ++ lineStart level ++ "]"
  | obj [] => "\x7b\x7d"
  | obj ((name, j) :: rest) =>
    "\x7b" ++ lineStart (level + 1) ++ quoted name ++ ": " ++ prettyAt (level + 1) j ++
      prettyMembers (level + 1) rest ++ lineStart level ++ "\x7d"

def prettyItems (level : Nat) : List Json → String
  | [] => ""
  | j :: rest => "," ++ lineStart level ++ prettyAt level j ++ prettyItems level rest

def prettyMembers (level : Nat) : List (String × Json) → String
  | [] => ""
  | (name, j) :: rest =>
    "," ++ lineStart level ++ quoted name ++ ": " ++ prettyAt level j ++ prettyMembers level rest

end

def pretty (j : Json) : String := prettyAt 0 j

end TestTrail.Json
