/-
Names of steps and actions.

An operation with a template is named by filling in its arguments. Without one, the name is the id, or another subject,
followed by the arguments. A scenario step is named by the scenario's text followed by the arguments, without blanks at
the end. When masking is on, the secrets of the call are taken out of the finished name.
-/
import TestTrail.Argument
import TestTrail.Operation
import TestTrail.Text.Blank
import TestTrail.Text.Mask
import TestTrail.Text.Template

namespace TestTrail.Naming

open TestTrail.Text

/-- the texts to hide in the names of this call -/
def secretsOf (op : Operation) (args : List Arg) : List String :=
  (args.filter fun a => op.isMasked a.name).flatMap fun a => a.value.secrets

/-- the text of the first argument with this name -/
def valueOf (args : List Arg) (name : String) : Option String :=
  (args.find? fun a => a.name == name).map fun a => a.value.display

def fill (template : String) (args : List Arg) : String := Template.substitute (valueOf args) template

def defaultName (subject : String) (args : List Arg) : String :=
  if args.isEmpty then subject else subject ++ " " ++ argString args

/-- the name of a call before masking -/
def plainName (op : Operation) (subject : Option String) (args : List Arg) : String :=
  match op.template with
  | some template => fill template args
  | none => defaultName (subject.getD op.id) args

/-- the name of a call; `subject` stands in for the id in default names -/
def name (enabled : Bool) (op : Operation) (subject : Option String) (args : List Arg) : String :=
  maskWhen enabled (secretsOf op args) (plainName op subject args)

/-- the name of a call as a step of a scenario -/
def scenarioName (enabled : Bool) (op : Operation) (text : String) (args : List Arg) : String :=
  maskWhen enabled (secretsOf op args) (trimEnd (text ++ " " ++ argString args))

end TestTrail.Naming
