/-
Options on a command line.

An option is written `--name`, or `-x` where it has a letter; letters of options without a value may stand together. A
value follows as the next word, unless that word starts like an option, or behind an equals sign; behind a letter the sign
may be missing. Every option has a set of values it takes, and stands there once only unless it is repeatable. `readOptions`
goes from left to right and ends at the first plain word; behind `--` every word is plain, and there must be none. A wish
for help ends the reading where it stands, as does the first misuse.
-/

namespace TestTrail.CommandLine

/-- one option a command knows -/
structure Rule where
  name : String
  letter : Option Char := none
  /-- the values it takes; none for an option without a value -/
  accepts : Option (String → Bool) := none
  repeatable : Bool := false

/-- an option as it was given; without a value the text is empty -/
structure Given where
  name : String
  value : String
  deriving DecidableEq, Repr

/-- why reading ends early -/
inductive Stop where
  | help
  | misuse
  deriving DecidableEq, Repr

/-- the value of the last option with this name -/
def value? (given : List Given) (name : String) : Option String :=
  (given.find? fun g => g.name == name).map Given.value

/-- all values of an option in order -/
def values (given : List Given) (name : String) : List String :=
  (given.filter fun g => g.name == name).map Given.value

def isGiven (given : List Given) (name : String) : Bool := given.any fun g => g.name == name

def looksLikeOption (word : String) : Bool :=
  match word.toList with
  | '-' :: _ :: _ => true
  | _ => false

/-- adds an option with its value -/
def give (rule : Rule) (value : String) (given : List Given) : Except Stop (List Given) :=
  if !rule.repeatable && isGiven given rule.name then .error .misuse
  else match rule.accepts with
    | some accepts => if accepts value then .ok (given ++ [⟨rule.name, value⟩]) else .error .misuse
    | none => .ok (given ++ [⟨rule.name, value⟩])

/-- the letters behind a hyphen; the rule in the answer is one that still waits for its value -/
def giveLetters (rules : List Rule) (given : List Given) : List Char → Except Stop (List Given × Option Rule)
  | [] => .ok (given, none)
  | c :: rest =>
    match rules.find? fun r => r.letter == some c with
    | none => .error (if c = 'h' then .help else .misuse)
    | some rule =>
      if rule.accepts.isSome then
        match rest with
        | [] => .ok (given, some rule)
        | '=' :: value => (give rule (String.ofList value) given).map fun given => (given, none)
        | value => (give rule (String.ofList value) given).map fun given => (given, none)
      else
        match give rule "" given with
        | .ok given => giveLetters rules given rest
        | .error stop => .error stop

/-- an option by its name, with the value behind its equals sign if there is one -/
def giveName (rules : List Rule) (given : List Given) (name : String) (value : Option String) :
    Except Stop (List Given × Option Rule) :=
  match rules.find? fun r => r.name == name with
  | none => .error (if name = "help" ∧ value = none then .help else .misuse)
  | some rule =>
    match rule.accepts.isSome, value with
    | true, some value => (give rule value given).map fun given => (given, none)
    | true, none => .ok (given, some rule)
    | false, some _ => .error .misuse
    | false, none => (give rule "" given).map fun given => (given, none)

/-- one word that starts like an option -/
def giveWord (rules : List Rule) (given : List Given) (word : List Char) :
    Except Stop (List Given × Option Rule) :=
  match word with
  | '-' :: '-' :: rest =>
    let name := rest.takeWhile (· != '=')
    let value := match rest.drop name.length with
      | _ :: value => some (String.ofList value)
      | [] => none
    giveName rules given (String.ofList name) value
  | _ :: letters => giveLetters rules given letters
  | [] => .error .misuse

/-- reads options up to the first plain word; `waiting` is an option whose value comes next -/
def readFrom (rules : List Rule) : List Given → Option Rule → List String → Except Stop (List Given × List String)
  | given, none, [] => .ok (given, [])
  | _, some _, [] => .error .misuse
  | given, some rule, word :: words =>
    if looksLikeOption word then .error .misuse
    else
      match give rule word given with
      | .ok given => readFrom rules given none words
      | .error stop => .error stop
  | given, none, word :: words =>
    if word = "--" then (if words.isEmpty then .ok (given, []) else .error .misuse)
    else if looksLikeOption word then
      match giveWord rules given word.toList with
      | .ok (given, waiting) => readFrom rules given waiting words
      | .error stop => .error stop
    else .ok (given, word :: words)

def readOptions (rules : List Rule) (words : List String) : Except Stop (List Given × List String) :=
  readFrom rules [] none words

end TestTrail.CommandLine
