import AccessAudit.Command.Arguments
import AccessAudit.Contrast.Judgement

/-!
# Commands

The commands of the program and the command lines that ask for them.  Options that concern the whole
program may stand before or after the name of the command.
-/

namespace AccessAudit.Command

/-- Forms of a printed report. -/
inductive OutputFormat where
  | text
  | json
  | compact
  deriving DecidableEq, Repr

/-- The format of a name. -/
def OutputFormat.ofName? : String → Option OutputFormat
  | "text" => some .text
  | "json" => some .json
  | "compact" => some .compact
  | _ => none

/-- What a scan is asked to do. -/
structure ScanRequest where
  files : List String
  all : Bool
  root : String
  format : OutputFormat
  /-- Ids of the rules to run, with commas between them. -/
  rules : Option String
  exclude : List String
  deriving DecidableEq, Repr

/-- What a comparison of two colours is asked to do. -/
structure ContrastRequest where
  foreground : String
  background : String
  fontSize : String
  fontWeight : String
  level : Level
  json : Bool
  deriving DecidableEq, Repr

/-- A command. -/
inductive Action where
  | scan (request : ScanRequest)
  | listRules
  | contrast (request : ContrastRequest)
  | init (force : Bool)
  deriving DecidableEq, Repr

/-- What a command line asks for. -/
inductive Request where
  | run (settings : Option String) (action : Action)
  | version
  | help
  deriving DecidableEq, Repr

/-! ### Options -/

/-- A flag. -/
def flag (long : String) (short : Option Char) : OptionSpec :=
  ⟨long, short, false, false⟩

/-- An option with a value. -/
def setting (long : String) (short : Option Char) : OptionSpec :=
  ⟨long, short, true, false⟩

/-- Options that may stand anywhere. -/
def commonOptions : List OptionSpec :=
  [flag "verbose" 'v', setting "config" 'c', flag "help" 'h']

/-- Options before the name of the command. -/
def topOptions : List OptionSpec :=
  commonOptions ++ [flag "version" 'V']

/-- Options of a scan. -/
def scanOptions : List OptionSpec :=
  [flag "all" none, setting "root" none, setting "format" 'f', setting "rules" none,
   ⟨"exclude", 'e', true, true⟩]

/-- Options of a comparison. -/
def contrastOptions : List OptionSpec :=
  [setting "font-size" none, setting "font-weight" none, setting "level" none, flag "json" none]

/-- Options for writing a settings file. -/
def initOptions : List OptionSpec :=
  [flag "force" none]

/-! ### Command lines -/

/-- A path, which is not empty. -/
def path? (text : String) : Option String :=
  if text.isEmpty then none else some text

/-- The value of an option that is a path. -/
def pathValue? (a : Arguments) (long : String) : Option (Option String) :=
  match a.value? long with
  | none => some none
  | some text => (path? text).map some

/-- The scan that arguments ask for. -/
def scanOf? (a : Arguments) : Option Action := do
  let files ← a.operands.mapM path?
  let root ← pathValue? a "root"
  let format ← OutputFormat.ofName? ((a.value? "format").getD "text")
  return .scan
    { files := files
      all := a.has "all"
      root := root.getD "."
      format := format
      rules := a.value? "rules"
      exclude := a.values "exclude" }

/-- The comparison that arguments ask for. -/
def contrastOf? (a : Arguments) : Option Action :=
  match a.operands, Level.parse ((a.value? "level").getD "AA") with
  | [foreground, background], .ok level =>
    some <| .contrast
      { foreground := foreground
        background := background
        fontSize := (a.value? "font-size").getD "16px"
        fontWeight := (a.value? "font-weight").getD "400"
        level := level
        json := a.has "json" }
  | _, _ => none

/-- A command that has no operands. -/
def withoutOperands? (a : Arguments) (action : Action) : Option Action :=
  if a.operands.isEmpty then some action else none

/-- The options of a command by its name, and what its arguments ask for. -/
def commandOf? : String → Option (List OptionSpec × (Arguments → Option Action))
  | "scan" => some (scanOptions, scanOf?)
  | "list-rules" => some ([], fun a => withoutOperands? a .listRules)
  | "contrast" => some (contrastOptions, contrastOf?)
  | "init" => some (initOptions, fun a => withoutOperands? a (.init (a.has "force")))
  | _ => none

/-- What the arguments after the name of a command ask for.  A settings file named there goes before
one named earlier. -/
def requestOf? (top : Arguments) (name : String) (rest : List String) : Option Request :=
  match name, commandOf? name with
  | "help", _ => some .help
  | _, none => none
  | _, some (specs, actionOf?) =>
    match readArguments (specs ++ commonOptions) ["help"] true none .empty rest with
    | .wrong => none
    | .asked _ => some .help
    | .done a _ => do
      let early ← pathValue? top "config"
      let late ← pathValue? a "config"
      let action ← actionOf? a
      return .run (late.or early) action

/-- What a command line asks for; some ask for nothing. -/
def Request.read? (arguments : List String) : Option Request :=
  match readArguments topOptions ["help", "version"] false none .empty arguments with
  | .wrong => none
  | .asked option => some (if option = "version" then .version else .help)
  | .done top (name :: rest) => requestOf? top name rest
  | .done _ [] => none

end AccessAudit.Command
