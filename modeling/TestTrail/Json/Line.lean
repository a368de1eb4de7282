/-
JSON text on one line and in ASCII: no blanks, and every other character as escapes of 16 bits.
-/
import TestTrail.Json.Writer

namespace TestTrail.Json

def fourHex (n : Nat) : List Char := [n / 4096 % 16, n / 256 % 16, n / 16 % 16, n % 16].map hexLetter

/-- the escapes of a character: one unit, or a surrogate pair -/
def unitEscapes (c : Char) : List Char :=
  if c.toNat < 0x10000 then '\\' :: 'u' :: fourHex c.toNat
  else
    let n := c.toNat - 0x10000
    '\\' :: 'u' :: fourHex (0xd800 + n / 1024) ++ '\\' :: 'u' :: fourHex (0xdc00 + n % 1024)

def asciiChar (c : Char) : List Char := if c.toNat < 0x7f then escapeChar c else unitEscapes c

def asciiQuoted (s : String) : String := "\"" ++ String.ofList (s.toList.flatMap asciiChar) ++ "\""

mutual

def line : Json → String
  | null => "null"
  | bool b => if b then "true" else "false"
  | int i => toString i
  | float x => if x.isFinite then x.json else "null"
  | str s => asciiQuoted s
  | unreadable => "null"
  | arr items => "[" ++ ",".intercalate (lineItems items) ++ "]"
  | obj members => "\x7b" ++ ",".intercalate (lineMembers members) ++ "\x7d"

def lineItems : List Json → List String
  | [] => []
  | j :: rest => j.line :: lineItems rest

def lineMembers : List (String × Json) → List String
  | [] => []
  | (name, j) :: rest => (asciiQuoted name ++ ":" ++ j.line) :: lineMembers rest

end

end TestTrail.Json
