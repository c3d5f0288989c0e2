import AccessAudit.FileSystem
import AccessAudit.Markup.Source
import AccessAudit.Report.Basic
import AccessAudit.Rule.Registry
import AccessAudit.Settings.Basic

/-!
# Scans

A scanner reads sources and runs the rules that its settings enable on them.  Over a list of files
it makes one report: files that no reader reads are passed over, and a file that cannot be read or
whose syntax is wrong is listed and adds nothing.
-/

namespace AccessAudit

/-- What a scan works with. -/
structure Scanner where
  root : String
  readers : List Markup.Reader
  rules : List Rule
  settings : Settings

/-- Why a file cannot be scanned. -/
inductive ScanError where
  | unreadable (path : String) (failure : ReadFailure)
  | wrongSyntax (error : Markup.SyntaxError)
  deriving DecidableEq, Repr

/-- The wording of a file that cannot be read. -/
def ScanError.message : ScanError → String
  | .unreadable path failure => "Failed to read " ++ path ++ ": " ++ failure.message
  | .wrongSyntax error => error.display

namespace Scanner

/-- A scanner with those of some rules that the settings enable.  Without a root of its own it takes
the one of the settings. -/
def of (root : Option String) (readers : List Markup.Reader) (rules : List Rule)
    (settings : Settings) : Scanner where
  root := root.getD settings.scope.root
  readers := readers
  rules := rules.filter fun rule => settings.enables rule.id
  settings := settings

/-- The scanner with the readers of both dialects, which work with a parser, and all rules. -/
def builtin (parser : Markup.Parser) (root : Option String) (settings : Settings) : Scanner :=
  of root (Markup.Reader.builtin parser) Rule.builtin settings

/-- Whether there is a reader for the file at a path. -/
def handles (s : Scanner) (path : String) : Bool :=
  (Markup.Reader.find? s.readers path).isSome

/-- The findings of all rules on a page. -/
def check (s : Scanner) (path text : String) (page : Markup.Page) : List Finding :=
  s.rules.flatMap fun rule => rule.findings (Document.of s.root path text) page

/-- The findings on a text that stands at a path, in the order of the rules.  A text that no reader
reads has none. -/
def scanText (s : Scanner) (path text : String) : Except ScanError (List Finding) :=
  match Markup.Reader.find? s.readers path with
  | none => .ok []
  | some reader =>
    match reader.read path text with
    | .ok page => .ok (s.check path text page)
    | .error error => .error (.wrongSyntax error)

/-- The findings on the file at a path. -/
def scanFile (s : Scanner) (read : String → Except ReadFailure String) (path : String) :
    Except ScanError (List Finding) :=
  match read path with
  | .ok text => s.scanText path text
  | .error failure => .error (.unreadable path failure)

/-- The report with what a scan of one more file gives. -/
def addFile (s : Scanner) (read : String → Except ReadFailure String) (report : Report)
    (path : String) : Report :=
  if s.handles path then
    match s.scanFile read path with
    | .ok findings => (report.extend findings).countScanned
    | .error _ => report.addFailed path
  else report

/-- The sorted report on some files; it is empty if the settings say not to scan. -/
def scanFiles (s : Scanner) (read : String → Except ReadFailure String) (paths : List String) :
    Report :=
  if s.settings.enabled then (paths.foldl (s.addFile read) .empty).sort else .empty

end Scanner

end AccessAudit
