/-
File names and paths.

`safeName` makes any text usable as one part of a file name: ASCII letters, digits, `-` and `_` stay, every other
character becomes an underscore. `join` puts a name below a directory. A path is cut at its slashes into `steps`; the
empty ones and single dots lead nowhere, the others are its `parts`. `baseName?` is the last part, which a path that ends
in `..` does not have. `parents` are the paths of the directories on the way, nearest first, and `below?` is what is left
of a path behind a directory; both go by parts and leave the steps between them as they are.
-/
import TestTrail.Text.Pieces

namespace TestTrail.Text.Path

def isSafe (c : Char) : Bool := c.isAlphanum || c == '-' || c == '_'

def safeName (name : String) : String :=
  String.ofList (name.toList.map fun c => if isSafe c then c else '_')

/-- a path from the root, not from where the program is -/
def isAbsolute (path : String) : Bool := path.toList.head? == some '/'

/-- the path of `name` below `dir`; a name that is a path from the root stays as it is -/
def join (dir name : String) : String :=
  if isAbsolute name then name
  else match dir.toList.getLast? with
    | none => name
    | some '/' => dir ++ name
    | some _ => dir ++ "/" ++ name

def steps (path : String) : List String := (pieces '/' path.toList).map String.ofList

/-- a step that leads nowhere -/
def isIdle (step : String) : Bool := step == "" || step == "."

def parts (path : String) : List String := (steps path).filter fun p => !isIdle p

def baseName? (path : String) : Option String := (parts path).getLast?.filter (· != "..")

/-- the beginnings of some steps that end in a part and have another part behind it; `before` comes first -/
def beginnings (before : List String) : List String → List (List String)
  | [] => []
  | step :: rest =>
    let here := before ++ [step]
    if isIdle step || rest.all isIdle then beginnings here rest else here :: beginnings here rest

def parents (path : String) : List String := (beginnings [] (steps path)).reverse.map "/".intercalate

/-- the steps before the last one that is not empty, and that one -/
def splitLast (path : String) : List String × String :=
  match (steps path).reverse.dropWhile (· == "") with
  | last :: before => (before.reverse, last)
  | [] => ([], "")

/-- the steps that are left when all parts of a directory are taken off the front -/
def stepsBehind? : List String → List String → Option (List String)
  | [], steps => some steps
  | _ :: _, [] => none
  | part :: more, step :: steps =>
    if isIdle step then stepsBehind? (part :: more) steps
    else if step == part then stepsBehind? more steps
    else none

def below? (dir path : String) : Option String :=
  if isAbsolute dir == isAbsolute path then
    (stepsBehind? (parts dir) (steps path)).map fun rest =>
      "/".intercalate ((rest.dropWhile isIdle).reverse.dropWhile isIdle).reverse
  else none

/-- a place: the names on the way from the root -/
abbrev Route := List String

/-- every character of a safe name is safe -/
theorem isSafe_of_mem_safeName {name : String} {c : Char} (h : c ∈ (safeName name).toList) : isSafe c = true := by
  simp only [safeName, String.toList_ofList, List.mem_map] at h
  obtain ⟨d, _, rfl⟩ := h
  split
  · assumption
  · decide

end TestTrail.Text.Path
