/-
Taking structures out of JSON values.

A structure is written as an object, or as an array of its fields in order, which may end early. Unknown members of an
object are ignored; a known one may stand there once only, and an array may not be longer than the structure. `fields?`
finds the fields by their names. A field is then `required`, has a default (`orElse`), or is `optional`, where null counts
as absent. Tags are names of constructors; they may also be the only member of an object, with nothing as its value.
-/
import TestTrail.Json
import TestTrail.Word

namespace TestTrail.Json

/-- the value of a member that stands there at most once; none when there are more -/
def single? (members : List (String × Json)) (name : String) : Option (Option Json) :=
  match members.filter fun m => m.1 == name with
  | [] => some none
  | [m] => some (some m.2)
  | _ => none

/-- the fields of a structure in the order of their names -/
def fields? (names : List String) : Json → Option (List (Option Json))
  | obj members => names.mapM (single? members)
  | arr items =>
    if items.length ≤ names.length then
      some (items.map some ++ List.replicate (names.length - items.length) none)
    else none
  | _ => none

variable {α : Type}

def required (field : Option Json) (read : Json → Option α) : Option α := field.bind read

def orElse (field : Option Json) (read : Json → Option α) (default : α) : Option α :=
  match field with
  | none => some default
  | some j => read j

def optional (field : Option Json) (read : Json → Option α) : Option (Option α) :=
  match field with
  | none => some none
  | some null => some none
  | some j => (read j).map some

def toString? : Json → Option String
  | str s => some s
  | _ => none

def toBool? : Json → Option Bool
  | bool b => some b
  | _ => none

/-- a whole number that is not negative; those in a text have 64 bits at most -/
def toNat? : Json → Option Nat
  | int (.ofNat n) => some n
  | _ => none

def toUInt32? : Json → Option UInt32
  | int (.ofNat n) => if n < Word.limit32 then some (UInt32.ofNat n) else none
  | _ => none

def toInt64? : Json → Option Int64
  | int i => if -9223372036854775808 ≤ i ∧ i < 9223372036854775808 then some (Int64.ofInt i) else none
  | _ => none

def toList? (read : Json → Option α) : Json → Option (List α)
  | arr items => items.mapM read
  | _ => none

def toStrings? : Json → Option (List String) := toList? toString?

/-- nothing, as the value that may follow a tag -/
def isNothing (buffered : Bool) : Json → Bool
  | null => true
  | obj [] => buffered
  | _ => false

/-- a tag, alone or as the only member of an object; values that were read ahead also take an empty object for nothing -/
def tag? (buffered : Bool) : Json → Option String
  | str s => some s
  | obj [(name, j)] => if isNothing buffered j then some name else none
  | _ => none

/-- the constructor with the tag that stands here -/
def oneOf? (buffered : Bool) (tag : α → String) (all : List α) (j : Json) : Option α :=
  (tag? buffered j).bind fun t => all.find? fun a => tag a == t

/-- the tag of a value with fields; values that were read ahead may also give the place of the tag in the list -/
def constructor? (buffered : Bool) (tags : List String) : Json → Option String
  | str s => if tags.contains s then some s else none
  | int (.ofNat n) => if buffered then tags[n]? else none
  | _ => none

/-- a value with a tag among its members, or in front of its items: the tag, and the fields without it -/
def tagged? (key : String) (buffered : Bool) (tags : List String) : Json → Option (String × Json)
  | obj members =>
    match members.filter fun m => m.1 == key with
    | [(_, tag)] => (constructor? buffered tags tag).map fun t => (t, obj (members.filter fun m => m.1 != key))
    | _ => none
  | arr (tag :: items) => (constructor? buffered tags tag).map fun t => (t, arr items)
  | _ => none

end TestTrail.Json
