/-
Files as a value: which directories there are and what the files hold.

A path is followed step by step from the root or from where the program is. Every step must find a directory that is
there; two dots lead to the directory around it, from the root nowhere. Names have at most 255 bytes and paths fewer than
4096. `locate` finds the place a path leads to; `target` finds where its last name is or would be.

`makeDirectory` makes a directory and those missing around it: the nearest one that can be made is made first, then the
rest from there. A path whose last step is a dot names no new directory, so it fails unless the directory is there.
`removeTree` empties a directory and then removes it, if its path still ends in its name. What a failed operation has done
by then stays done.
-/
import TestTrail.Problem
import TestTrail.Screen.Framebuffer
import TestTrail.Text.Path

namespace TestTrail

open TestTrail.Text TestTrail.Screen

/-- what a file holds -/
inductive Content where
  | text (s : String)
  | image (screen : Framebuffer)
  | bytes (data : List UInt8)
  deriving DecidableEq

structure Store where
  directories : List Path.Route := []
  files : List (Path.Route × Content) := []
  /-- where relative paths start -/
  start : Path.Route := []
  deriving DecidableEq

namespace Store

/-- how many bytes a name may have -/
def nameLimit : Nat := 255

/-- how many bytes a path may not have -/
def pathLimit : Nat := 4096

def isFile (s : Store) (r : Path.Route) : Bool := s.files.any fun f => f.1 == r

/-- the root is always a directory -/
def isDirectory (s : Store) (r : Path.Route) : Bool := r.isEmpty || s.directories.contains r

def isTaken (s : Store) (r : Path.Route) : Bool := s.isDirectory r || s.isFile r

/-- follows steps from a place -/
def walk (s : Store) (here : Path.Route) : List String → Except FileError Path.Route
  | [] => .ok here
  | step :: rest =>
    if !s.isDirectory here then .error .notADirectory
    else if Path.isIdle step then s.walk here rest
    else if step = ".." then s.walk here.dropLast rest
    else if nameLimit < step.utf8ByteSize then .error .nameTooLong
    else if s.isTaken (here ++ [step]) then s.walk (here ++ [step]) rest
    else .error .notFound

/-- why no path can be written like this, if so -/
def pathProblem? (path : String) : Option FileError :=
  if path.toList.contains '\x00' then some .invalidInput
  else if path = "" then some .notFound
  else if pathLimit ≤ path.utf8ByteSize then some .nameTooLong
  else none

def origin (s : Store) (path : String) : Path.Route := if Path.isAbsolute path then [] else s.start

/-- the place that a path leads to -/
def locate (s : Store) (path : String) : Except FileError Path.Route :=
  match pathProblem? path with
  | some e => .error e
  | none => s.walk (s.origin path) (Path.steps path)

/-- the directory in which the last step of a path is taken, and that step -/
def target (s : Store) (path : String) : Except FileError (Path.Route × String) :=
  match pathProblem? path with
  | some e => .error e
  | none =>
    match s.walk (s.origin path) (Path.splitLast path).1 with
    | .error e => .error e
    | .ok here =>
      let last := (Path.splitLast path).2
      if !s.isDirectory here then .error .notADirectory
      else if nameLimit < last.utf8ByteSize then .error .nameTooLong
      else .ok (here, last)

/-- a step that can be the name of something new -/
def isName (step : String) : Bool := !Path.isIdle step && step != ".."

def leadsToDirectory (s : Store) (path : String) : Bool :=
  match s.locate path with
  | .ok r => s.isDirectory r
  | .error _ => false

/-- makes one directory in a directory that is there -/
def makeOne (s : Store) (path : String) : Except FileError Store :=
  match s.target path with
  | .error e => .error e
  | .ok (here, last) =>
    if !isName last || s.isTaken (here ++ [last]) then .error .alreadyExists
    else .ok { s with directories := s.directories ++ [here ++ [last]] }

/-- makes one directory unless it is there -/
def ensureOne (s : Store) (path : String) : Option FileError × Store :=
  match s.makeOne path with
  | .ok s => (none, s)
  | .error e => if s.leadsToDirectory path then (none, s) else (some e, s)

/-- makes the first of some directories, of which each lies in the next one -/
def makeWay (s : Store) : List String → Option FileError × Store
  | [] => (none, s)
  | path :: around =>
    match s.makeOne path with
    | .error .notFound =>
      match s.makeWay around with
      | (none, s) => s.ensureOne path
      | (some e, s) => (some e, s)
    | _ => s.ensureOne path

def makeDirectory (s : Store) (path : String) : Option FileError × Store :=
  if path = "" then (none, s) else s.makeWay (path :: Path.parents path)

/-- writes a file into a directory that is there, in place of what stood there -/
def writeFile (s : Store) (path : String) (c : Content) : Option FileError × Store :=
  match s.target path with
  | .error e => (some e, s)
  | .ok (here, last) =>
    let r := here ++ [last]
    if !isName last || s.isDirectory r || path.toList.getLast? == some '/' then (some .isADirectory, s)
    else (none, { s with files := s.files.filter (fun f => f.1 != r) ++ [(r, c)] })

/-- makes a directory and writes a file into it -/
def writeInto (s : Store) (dir path : String) (c : Content) : Option FileError × Store :=
  match s.makeDirectory dir with
  | (none, s) => s.writeFile path c
  | (some e, s) => (some e, s)

def readBytes (s : Store) (path : String) : Except FileError Content :=
  match s.locate path with
  | .error e => .error e
  | .ok r =>
    match s.files.find? fun f => f.1 == r with
    | some f => .ok f.2
    | none => .error .isADirectory

/-- the text of a file; bytes that are no UTF-8 have none -/
def readText (s : Store) (path : String) : Except FileError String :=
  match s.readBytes path with
  | .ok (.text t) => .ok t
  | .ok (.bytes data) => match String.fromUTF8? ⟨data.toArray⟩ with
    | some t => .ok t
    | none => .error .invalidData
  | .ok (.image _) => .error .invalidData
  | .error e => .error e

/-- takes away what lies below a place -/
def emptied (s : Store) (r : Path.Route) : Store :=
  { s with
    directories := s.directories.filter fun d => d == r || !r.isPrefixOf d
    files := s.files.filter fun f => f.1 == r || !r.isPrefixOf f.1 }

/-- removes one directory -/
def removeOne (s : Store) (path : String) : Store :=
  match s.target path with
  | .ok (here, last) =>
    if isName last then { s with directories := s.directories.filter (· != here ++ [last]) } else s
  | .error _ => s

/-- takes a directory away with all it holds; a plain file is left alone -/
def removeTree (s : Store) (path : String) : Store :=
  match s.locate path with
  | .ok r => if s.isFile r then s else (s.emptied r).removeOne path
  | .error _ => s

/-- something is at the place -/
def exists? (s : Store) (path : String) : Bool := (s.locate path).isOk

/-- the paths of all files below a place, from there, in the order of their text -/
def listing (s : Store) (r : Path.Route) : List String :=
  (s.files.filterMap fun f => (Path.stepsBehind? r f.1).map "/".intercalate).mergeSort fun a b => decide (a ≤ b)

end Store

end TestTrail
