/-
Reading JSON text.

The grammar is that of RFC 8259, without leniency: no byte order mark, comments or commas before a closing bracket, no
control characters in strings, no leading zeros, nothing behind the value. `Json.ofText?` is none exactly for texts
outside the grammar; what the grammar admits but has no value becomes `unreadable`. Every step consumes a character, so
the length of the text bounds the recursion.
-/
import TestTrail.Json.Number

namespace TestTrail.Json

open TestTrail.Text

def isSpace (c : Char) : Bool := c == ' ' || c == '\n' || c == '\r' || c == '\t'

def skipSpace (cs : List Char) : List Char := cs.dropWhile isSpace

/-! ## Strings -/

/-- a part of a string: a character, or a unit of 16 bits written as an escape -/
inductive Piece where
  | char (c : Char)
  | unit (n : Nat)

def hexDigit? (c : Char) : Option Nat :=
  if '0' ≤ c ∧ c ≤ '9' then some (c.toNat - 48)
  else if 'a' ≤ c ∧ c ≤ 'f' then some (c.toNat - 87)
  else if 'A' ≤ c ∧ c ≤ 'F' then some (c.toNat - 55)
  else none

def unit? (a b c d : Char) : Option Nat := do
  let a ← hexDigit? a
  let b ← hexDigit? b
  let c ← hexDigit? c
  let d ← hexDigit? d
  some (a * 4096 + b * 256 + c * 16 + d)

/-- the character of an escape of one letter -/
def escape? (c : Char) : Option Char :=
  if c = '"' then some '"'
  else if c = '\\' then some '\\'
  else if c = '/' then some '/'
  else if c = 'b' then some '\x08'
  else if c = 'f' then some '\x0c'
  else if c = 'n' then some '\n'
  else if c = 'r' then some '\r'
  else if c = 't' then some '\t'
  else none

/-- the pieces of a string up to its closing quote, last piece first, and the rest of the text -/
def pieces? (done : List Piece) : List Char → Option (List Piece × List Char)
  | [] => none
  | '"' :: rest => some (done, rest)
  | '\\' :: 'u' :: a :: b :: c :: d :: rest =>
    match unit? a b c d with
    | some n => pieces? (.unit n :: done) rest
    | none => none
  | '\\' :: c :: rest =>
    match escape? c with
    | some c => pieces? (.char c :: done) rest
    | none => none
  | c :: rest => if c.toNat < 0x20 then none else pieces? (.char c :: done) rest

def isHighSurrogate (n : Nat) : Bool := decide (0xd800 ≤ n ∧ n < 0xdc00)

def isLowSurrogate (n : Nat) : Bool := decide (0xdc00 ≤ n ∧ n < 0xe000)

/-- joins surrogate pairs, going through the pieces from the last to the first; a lone surrogate has no character -/
def joinPieces (after : List Char) : List Piece → Option (List Char)
  | [] => some after
  | .char c :: before => joinPieces (c :: after) before
  | .unit low :: .unit high :: before =>
    if isLowSurrogate low then
      if isHighSurrogate high then
        joinPieces (Char.ofNat (0x10000 + (high - 0xd800) * 1024 + (low - 0xdc00)) :: after) before
      else none
    else if isHighSurrogate low then none
    else joinPieces (Char.ofNat low :: after) (.unit high :: before)
  | .unit n :: before =>
    if isLowSurrogate n || isHighSurrogate n then none else joinPieces (Char.ofNat n :: after) before

/-- a string behind its opening quote: its value, if it has one, and the rest of the text -/
def string? (cs : List Char) : Option (Option String × List Char) :=
  (pieces? [] cs).map fun (pieces, rest) => ((joinPieces [] pieces).map String.ofList, rest)

/-! ## Numbers -/

/-- the exponent behind its letter -/
def exponentPart? (cs : List Char) : Option (Int × List Char) :=
  let (sign, cs) : Int × List Char := match cs with
    | '-' :: rest => (-1, rest)
    | '+' :: rest => (1, rest)
    | rest => (1, rest)
  let digits := cs.takeWhile isDigit
  if digits.isEmpty then none else some (sign * digitsValue digits, cs.drop digits.length)

/-- what follows the whole digits of a number -/
def numberTail? (negative : Bool) (whole : List Char) (cs : List Char) : Option (Json × List Char) :=
  let point : Option (List Char × List Char) := match cs with
    | '.' :: rest =>
      let digits := rest.takeWhile isDigit
      if digits.isEmpty then none else some (digits, rest.drop digits.length)
    | _ => some ([], cs)
  match point with
  | none => none
  | some (fraction, rest) =>
    match rest with
    | c :: more =>
      if c == 'e' || c == 'E' then
        (exponentPart? more).map fun (e, rest) => (ofDecimalParts negative whole fraction e, rest)
      else some (if fraction.isEmpty then ofWhole negative whole else ofDecimalParts negative whole fraction 0, rest)
    | [] => some (if fraction.isEmpty then ofWhole negative whole else ofDecimalParts negative whole fraction 0, [])

/-- a number that starts with a digit or a minus sign -/
def number? (cs : List Char) : Option (Json × List Char) :=
  let (negative, cs) := match cs with
    | '-' :: rest => (true, rest)
    | rest => (false, rest)
  match cs with
  | '0' :: rest => match rest with
    | c :: _ => if isDigit c then none else numberTail? negative ['0'] rest
    | [] => numberTail? negative ['0'] rest
  | _ =>
    let digits := cs.takeWhile isDigit
    if digits.isEmpty then none else numberTail? negative digits (cs.drop digits.length)

/-! ## Values -/

/-- an object; a name without value makes the whole object unreadable -/
def ofMembers (members : List (Option String × Json)) : Json :=
  match members.mapM fun m => m.1.map fun name => (name, m.2) with
  | some members => obj members
  | none => unreadable

/-- drops a word from the front of a text -/
def word? (word : String) (value : Json) (cs : List Char) : Option (Json × List Char) :=
  let expected := word.toList
  if expected.isPrefixOf cs then some (value, cs.drop expected.length) else none

mutual

def value? : Nat → List Char → Option (Json × List Char)
  | 0, _ => none
  | fuel + 1, cs =>
    match skipSpace cs with
    | [] => none
    | c :: rest =>
      if c = '"' then (string? rest).map fun (s, rest) => ((s.map str).getD unreadable, rest)
      else if c = '[' then
        match skipSpace rest with
        | ']' :: rest => some (arr [], rest)
        | _ => items? fuel [] rest
      else if c = '{' then
        match skipSpace rest with
        | '}' :: rest => some (obj [], rest)
        | _ => members? fuel [] rest
      else if c = 'n' then word? "null" null (c :: rest)
      else if c = 't' then word? "true" (bool true) (c :: rest)
      else if c = 'f' then word? "false" (bool false) (c :: rest)
      else number? (c :: rest)

/-- the items from the next one on, with those already read, last first -/
def items? : Nat → List Json → List Char → Option (Json × List Char)
  | 0, _, _ => none
  | fuel + 1, done, cs =>
    match value? fuel cs with
    | none => none
    | some (item, rest) =>
      match skipSpace rest with
      | ',' :: rest => items? fuel (item :: done) rest
      | ']' :: rest => some (arr (item :: done).reverse, rest)
      | _ => none

/-- the members from the next one on, with those already read, last first -/
def members? : Nat → List (Option String × Json) → List Char → Option (Json × List Char)
  | 0, _, _ => none
  | fuel + 1, done, cs =>
    match skipSpace cs with
    | '"' :: rest =>
      match string? rest with
      | none => none
      | some (name, rest) =>
        match skipSpace rest with
        | ':' :: rest =>
          match value? fuel rest with
          | none => none
          | some (value, rest) =>
            match skipSpace rest with
            | ',' :: rest => members? fuel ((name, value) :: done) rest
            | '}' :: rest => some (ofMembers ((name, value) :: done).reverse, rest)
            | _ => none
        | _ => none
    | _ => none

end

/-- the value that a text writes -/
def ofText? (text : String) : Option Json :=
  let cs := text.toList
  match value? (2 * cs.length + 2) cs with
  | some (value, rest) => if (skipSpace rest).isEmpty then some value else none
  | none => none

end TestTrail.Json
