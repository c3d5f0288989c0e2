import AccessAudit.Command.Basic
import AccessAudit.Contrast.Comparison
import AccessAudit.Discovery.Walk
import AccessAudit.Report.Json
import AccessAudit.Scan
import AccessAudit.Settings.Lookup

/-!
# Running commands

A command works on the files it finds and gives what is to be printed, the status of the run, and
the files after it.
-/

namespace AccessAudit.Command

/-- Why a command fails. -/
inductive RunError where
  | settings (path : String)
  | noFiles
  | walk (error : Discovery.WalkError)
  | present (path : String)
  | unwritable (path : String)
  deriving DecidableEq, Repr

/-- The wording of an error. -/
def RunError.message : RunError → String
  | .settings path => "Failed to load config: " ++ path
  | .noFiles => "No files to scan. Pass file paths or use --all."
  | .walk error => error.message
  | .present path =>
    "Configuration file already exists at " ++ path ++ ". Use --force to overwrite."
  | .unwritable path => "Failed to write " ++ path

/-! ### Scans -/

/-- The report of a scan, whether violations fail the run, and whether it is printed. -/
structure ScanOutcome where
  report : Report
  failsOnViolations : Bool
  printed : Bool
  deriving DecidableEq, Repr

/-- Whether the run fails. -/
def ScanOutcome.shouldFail (o : ScanOutcome) : Bool :=
  o.failsOnViolations && o.report.hasViolations

/-- The ids between the commas of a text, without blanks around them. -/
def ruleFilter (text : String) : List String :=
  (((Text.pieces (· == ',') text.toList).map Text.trim).filter fun id => !id.isEmpty).map
    String.ofList

/-- The settings with the rules that a scan asks for. -/
def ScanRequest.applyTo (request : ScanRequest) (settings : Settings) : Settings :=
  match request.rules with
  | some text => { settings with rules := ruleFilter text }
  | none => settings

/-- The directory that a scan of all files walks. -/
def ScanRequest.directory (request : ScanRequest) (settings : Settings) : String :=
  if Path.compare settings.scope.root "." = .eq then request.root
  else Path.join request.root settings.scope.root

/-- The files that a scan looks at. -/
def ScanRequest.paths (request : ScanRequest) (fs : FileSystem) (scanner : Scanner) :
    Except RunError (List String) :=
  let settings := scanner.settings
  if request.all then
    match Discovery.discover fs scanner.handles settings.scope.respectGitignore
        (settings.scope.exclude ++ request.exclude) request.root (request.directory settings) with
    | .ok paths => .ok paths
    | .error e => .error (.walk e)
  else if request.files.isEmpty then .error .noFiles
  else .ok (request.files.filter scanner.handles)

/-- Runs a scan under settings, with a parser for the sources.  If the settings say not to scan,
nothing is looked at or printed. -/
def ScanRequest.run (parser : Markup.Parser) (request : ScanRequest) (fs : FileSystem)
    (settings : Settings) : Except RunError ScanOutcome :=
  let settings := request.applyTo settings
  if !settings.enabled then .ok ⟨.empty, false, false⟩
  else
    let scanner := Scanner.builtin parser (some request.root) settings
    match request.paths fs scanner with
    | .ok paths => .ok ⟨scanner.scanFiles fs.read paths, settings.failsOnViolations, true⟩
    | .error e => .error e

/-- A report for a person, with a hint if something was found and the files that failed. -/
def reportText (report : Report) : String :=
  report.format
    ++ (if report.isClean then ""
      else "\nThese are automated hints. Manual testing is still required.\n")
    ++ String.join (report.failed.map fun path => "Could not scan " ++ path ++ "\n")

/-- A report in a format. -/
def OutputFormat.render : OutputFormat → Report → String
  | .text, report => reportText report
  | .json, report => report.jsonText
  | .compact, report => report.compact

/-! ### Other commands -/

/-- A text with blanks after it up to a width. -/
def padRight (width : Nat) (text : String) : String :=
  text ++ String.ofList (List.replicate (width - text.length) ' ')

/-- One row of the table of rules. -/
def ruleRow (id name description : String) : String :=
  padRight 22 id ++ " " ++ padRight 22 name ++ " " ++ description ++ "\n"

/-- The list of all rules. -/
def ruleList : String :=
  "Available rules:\n\n" ++ ruleRow "Id" "Name" "Description"
    ++ String.ofList (List.replicate 90 '-') ++ "\n"
    ++ String.join (Rule.builtin.map fun rule => ruleRow rule.id rule.name rule.description)
    ++ "\nAll rules run unless the config lists a subset in \x60rules\x60.\n"
    ++ "Use --rules to run specific rules, e.g.:\n"
    ++ "  wcag-lint scan --all --rules image-alt,alt-text\n"

/-- What a comparison prints. -/
def ContrastRequest.output (request : ContrastRequest) : String :=
  let comparison := Comparison.of request.foreground request.background request.fontSize
    request.fontWeight request.level
  if request.json then comparison.toJson.pretty ++ "\n" else comparison.format

/-- The name of the settings file that is written. -/
def settingsFile : String :=
  "wcag-lint.toml"

/-- The settings file that is written. -/
def settingsTemplate : String :=
  String.join (List.map (· ++ "\n")
    ["# wcag-lint configuration",
     "",
     "# Set to false to turn the scanner into a no-op",
     "enabled = true",
     "",
     "# \"warning\": report only (exit 0)",
     "# \"error\":   exit 1 when critical or high severity violations are found",
     "severity = \"warning\"",
     "",
     "# Rule ids to run; an empty list runs every rule (see \x60wcag-lint list-rules\x60)",
     "rules = []",
     "# rules = [",
     "#     \"semantic-html\",",
     "#     \"aria-attributes\",",
     "#     \"keyboard-navigation\",",
     "#     \"form-labels\",",
     "#     \"alt-text\",",
     "#     \"heading-hierarchy\",",
     "# ]",
     "",
     "[analyzer]",
     "# Directory walked by \x60scan --all\x60, relative to --root",
     "# root = \"./src\"",
     "",
     "# Glob patterns to exclude from scanning",
     "exclude = [",
     "    \"**/node_modules/**\",",
     "    \"**/dist/**\",",
     "    \"**/build/**\",",
     "]",
     "",
     "# Respect .gitignore files",
     "respect_gitignore = true"])

/-- What is printed when a settings file was written. -/
def initOutput : String :=
  "Created " ++ settingsFile ++ "\n\nNext steps:\n  1. Edit " ++ settingsFile
    ++ " to choose rules\n  2. Run: wcag-lint scan --all\n"

/-- Writes a settings file into the working directory. -/
def writeSettings (fs : FileSystem) (force : Bool) : Except RunError FileSystem :=
  let path := Path.join "." settingsFile
  if fs.contains path && !force then .error (.present path)
  else
    match fs.find path with
    | .ok (.directory _) => .error (.unwritable path)
    | _ => .ok (fs.insert path (.file (some settingsTemplate)))

/-! ### The program -/

/-- The name and version of the program. -/
def versionText : String :=
  "wcag-lint 0.1.0\n"

/-- How the program is used. -/
def usageText : String :=
  "Usage: wcag-lint [OPTIONS] <COMMAND>\n\nCommands:\n"
    ++ "  scan        Scan component files for accessibility issues\n"
    ++ "  list-rules  List available rules\n"
    ++ "  contrast    Check the contrast of a foreground/background pair\n"
    ++ "  init        Initialize configuration file\n"

/-- What a run finds when it begins. -/
structure Environment where
  files : FileSystem
  home : Option String
  settingsDirectory : Option String

/-- The directory of the user's settings. -/
def Environment.userDirectory (e : Environment) : Option String :=
  e.settingsDirectory.or (e.home.map fun home => Path.join home ".wcag-lint")

/-- What a run leaves behind. -/
structure Outcome where
  status : Nat
  output : String
  error : Option RunError
  files : FileSystem

namespace Outcome

/-- A run that ends well. -/
def success (files : FileSystem) (output : String) : Outcome :=
  ⟨0, output, none, files⟩

/-- A run that an error ends. -/
def failure (files : FileSystem) (error : RunError) : Outcome :=
  ⟨1, "", some error, files⟩

/-- A run that a wrong command line ends. -/
def misuse (files : FileSystem) : Outcome :=
  ⟨2, "", none, files⟩

/-- The run of a scan. -/
def ofScan (files : FileSystem) (format : OutputFormat) (o : ScanOutcome) : Outcome where
  status := if o.shouldFail then 1 else 0
  output := if o.printed then format.render o.report else ""
  error := none
  files := files

end Outcome

/-- Runs a command, with a parser for the sources. -/
def Action.run (parser : Markup.Parser) (e : Environment) (named : Option String) :
    Action → Outcome
  | .listRules => .success e.files ruleList
  | .contrast request => .success e.files request.output
  | .init force =>
    match writeSettings e.files force with
    | .ok files => .success files initOutput
    | .error error => .failure e.files error
  | .scan request =>
    let source := Settings.lookup e.files request.root named e.userDirectory
    match source.load e.files with
    | .error _ => .failure e.files (.settings (source.path?.getD ""))
    | .ok settings =>
      match request.run parser e.files settings with
      | .ok outcome => .ofScan e.files request.format outcome
      | .error error => .failure e.files error

/-- Runs a command line, with a parser for the sources. -/
def run (parser : Markup.Parser) (e : Environment) (arguments : List String) : Outcome :=
  match Request.read? arguments with
  | none => .misuse e.files
  | some .version => .success e.files versionText
  | some .help => .success e.files usageText
  | some (.run named action) => action.run parser e named

end AccessAudit.Command
