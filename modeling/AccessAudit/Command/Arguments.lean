import AccessAudit.Text.Affix

/-!
# Arguments of a command line

Options have a long name, after two hyphens, and some a short one, a letter after one hyphen.  An
option takes a value, in the same argument or in the next one, or it is a flag.  All other
arguments, and all those after two hyphens alone, are operands.
-/

namespace AccessAudit.Command

/-- An option of a command line. -/
structure OptionSpec where
  long : String
  short : Option Char
  takesValue : Bool
  repeatable : Bool
  deriving DecidableEq, Repr

/-- What was read from a command line. -/
structure Arguments where
  /-- Options with their values in the order given; a flag has an empty value. -/
  options : List (String × String)
  /-- Operands in the order given. -/
  operands : List String
  deriving DecidableEq, Repr

namespace Arguments

/-- No arguments. -/
def empty : Arguments :=
  ⟨[], []⟩

/-- The arguments with one more option, unless it must not be given again. -/
def addOption? (a : Arguments) (spec : OptionSpec) (value : String) : Option Arguments :=
  if !spec.repeatable && a.options.any (fun entry => entry.1 == spec.long) then none
  else some { a with options := a.options ++ [(spec.long, value)] }

/-- The arguments with one more operand. -/
def addOperand (a : Arguments) (text : String) : Arguments :=
  { a with operands := a.operands ++ [text] }

/-- The values given for an option. -/
def values (a : Arguments) (long : String) : List String :=
  (a.options.filter fun entry => entry.1 == long).map Prod.snd

/-- The value given for an option. -/
def value? (a : Arguments) (long : String) : Option String :=
  (a.values long).head?

/-- Whether a flag was given. -/
def has (a : Arguments) (long : String) : Bool :=
  !(a.values long).isEmpty

end Arguments

/-- The kinds of one argument. -/
inductive ArgumentForm where
  | separator
  | long (name : String) (value : Option String)
  | short (letters : List Char)
  | operand
  deriving DecidableEq, Repr

/-- The form of an argument. -/
def ArgumentForm.of (argument : String) : ArgumentForm :=
  match argument.toList with
  | ['-', '-'] => .separator
  | '-' :: '-' :: rest =>
    match rest.span (· != '=') with
    | (name, _ :: value) => .long (String.ofList name) (some (String.ofList value))
    | (name, []) => .long (String.ofList name) none
  | '-' :: c :: rest => .short (c :: rest)
  | _ => .operand

/-- The outcome of reading arguments. -/
inductive Reading where
  /-- They were read as far as asked; the rest begins with an operand or is empty. -/
  | done (arguments : Arguments) (rest : List String)
  | asked (option : String)
  | wrong
  deriving DecidableEq, Repr

/-- What short letters say: the arguments after the flags among them, the option that still needs
its value in the next argument, or an option that goes before everything else. -/
inductive ShortReading where
  | done (arguments : Arguments)
  /-- The last option needs a value. -/
  | pending (arguments : Arguments) (spec : OptionSpec)
  | asked (option : String)
  | wrong

/-- Reads letters after one hyphen.  An option that takes a value takes the rest of them. -/
def readShort (specs : List OptionSpec) (urgent : List String) :
    Arguments → List Char → ShortReading
  | arguments, [] => .done arguments
  | arguments, c :: rest =>
    match specs.find? fun spec => spec.short == some c with
    | none => .wrong
    | some spec =>
      if urgent.contains spec.long then .asked spec.long
      else if !spec.takesValue then
        match arguments.addOption? spec "" with
        | some arguments => readShort specs urgent arguments rest
        | none => .wrong
      else if rest.isEmpty then .pending arguments spec
      else
        let value := (Text.rest? ['='] rest).getD rest
        match arguments.addOption? spec (String.ofList value) with
        | some arguments => .done arguments
        | none => .wrong

/-- Whether an argument can be the value of the option before it. -/
def isValue (argument : String) : Bool :=
  ArgumentForm.of argument == .operand

/-- Reads arguments after those read so far, all of them or those before the first operand.  Some
options are urgent: nothing is read after them. -/
def readArguments (specs : List OptionSpec) (urgent : List String) (all : Bool) :
    Option OptionSpec → Arguments → List String → Reading
  | some _, _, [] => .wrong
  | none, arguments, [] => .done arguments []
  | some spec, arguments, argument :: rest =>
    if isValue argument then
      match arguments.addOption? spec argument with
      | some arguments => readArguments specs urgent all none arguments rest
      | none => .wrong
    else .wrong
  | none, arguments, argument :: rest =>
    match ArgumentForm.of argument with
    | .separator => .done (rest.foldl Arguments.addOperand arguments) []
    | .operand =>
      if all then readArguments specs urgent all none (arguments.addOperand argument) rest
      else .done arguments (argument :: rest)
    | .short letters =>
      match readShort specs urgent arguments letters with
      | .done arguments => readArguments specs urgent all none arguments rest
      | .pending arguments spec => readArguments specs urgent all (some spec) arguments rest
      | .asked option => .asked option
      | .wrong => .wrong
    | .long name value =>
      match specs.find? fun spec => spec.long == name with
      | none => .wrong
      | some spec =>
        if urgent.contains spec.long then (if value.isNone then .asked spec.long else .wrong)
        else
          match spec.takesValue, value with
          | true, none => readArguments specs urgent all (some spec) arguments rest
          | false, some _ => .wrong
          | _, value =>
            match arguments.addOption? spec (value.getD "") with
            | some arguments => readArguments specs urgent all none arguments rest
            | none => .wrong

end AccessAudit.Command
