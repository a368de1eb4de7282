/-
Quoted text: a text between double quotes, on one line and with every character visible.

Quotes and backslashes get a backslash in front, the usual control characters are written by a letter, and every other
character that would not show is written by its number in braces.
-/
import TestTrail.Text.Printable

namespace TestTrail.Text.Quoted

/-- the number of a character in hexadecimal, in braces behind `\u` -/
def numbered (c : Char) : List Char := '\\' :: 'u' :: '\x7b' :: (Nat.toDigits 16 c.toNat ++ ['\x7d'])

def encodeChar (c : Char) : List Char :=
  if c = '\x00' then ['\\', '0']
  else if c = '\t' then ['\\', 't']
  else if c = '\r' then ['\\', 'r']
  else if c = '\n' then ['\\', 'n']
  else if c = '"' then ['\\', '"']
  else if c = '\\' then ['\\', '\\']
  else if Printable.isHidden c then numbered c
  else [c]

def encode (s : String) : String := "\"" ++ String.ofList (s.toList.flatMap encodeChar) ++ "\""

end TestTrail.Text.Quoted
