/-
Name templates with placeholders.

A placeholder is a dollar sign followed by an identifier in braces; an identifier starts with an ASCII letter or an
underscore and goes on with those and ASCII digits. `substitute` replaces every placeholder whose name the lookup knows
and keeps the others as written. It is a single pass: `skip` counts the characters of the placeholder still to be passed
over, and text that came out of a value is not looked at again.
-/

namespace TestTrail.Text.Template

def isLetter (c : Char) : Bool := c.isAlpha || c == '_'

def isNameChar (c : Char) : Bool := c.isAlphanum || c == '_'

/-- the name of the placeholder whose part behind the dollar sign starts the text -/
def placeholder? (cs : List Char) : Option (List Char) :=
  match cs with
  | '{' :: rest =>
    let name := rest.takeWhile isNameChar
    match name, rest.drop name.length with
    | c :: _, '}' :: _ => if isLetter c then some name else none
    | _, _ => none
  | _ => none

def substituteFrom (value : List Char → Option (List Char)) : Nat → List Char → List Char
  | _, [] => []
  | skip + 1, _ :: cs => substituteFrom value skip cs
  | 0, c :: cs =>
    if c = '$' then
      match placeholder? cs with
      | none => c :: substituteFrom value 0 cs
      | some name =>
        match value name with
        | none => c :: substituteFrom value 0 cs
        | some text => text ++ substituteFrom value (name.length + 2) cs
    else c :: substituteFrom value 0 cs

/-- replaces the placeholders that `value` knows -/
def substitute (value : String → Option String) (template : String) : String :=
  String.ofList (substituteFrom (fun n => (value (String.ofList n)).map String.toList) 0 template.toList)

end TestTrail.Text.Template
