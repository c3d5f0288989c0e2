import AccessAudit.Path
import AccessAudit.Text.Fold
import AccessAudit.Text.Lines

/-!
# Findings

A finding says which rule was broken, how severe that is, and where.  Its text forms are a block of
lines for a person and one line for a tool.
-/

namespace AccessAudit

/-- How severe a finding is. -/
inductive Severity where
  | low
  | medium
  | high
  | critical
  deriving DecidableEq, Repr

namespace Severity

/-- All severities, the mildest first. -/
def all : List Severity :=
  [.low, .medium, .high, .critical]

/-- Position among the severities. -/
def rank : Severity → Nat
  | .low => 0
  | .medium => 1
  | .high => 2
  | .critical => 3

/-- The name of a severity. -/
def name : Severity → String
  | .low => "low"
  | .medium => "medium"
  | .high => "high"
  | .critical => "critical"

/-- The severity of a name. -/
def ofName? (text : String) : Option Severity :=
  all.find? fun s => s.name == text

/-- Whether a finding of this severity is a violation; the others are warnings. -/
def isViolation : Severity → Bool
  | .high | .critical => true
  | .low | .medium => false

/-- Severities in increasing order. -/
def sort (severities : List Severity) : List Severity :=
  severities.mergeSort fun a b => decide (a.rank ≤ b.rank)

end Severity

/-- A place in a file. -/
structure Location where
  file : String
  /-- Line, counted from 1. -/
  line : Nat
  /-- Column in bytes, counted from 1; 0 if it is not known. -/
  column : Nat
  deriving DecidableEq, Repr

/-- A further place that a finding speaks of. -/
structure Label where
  location : Location
  message : String
  deriving DecidableEq, Repr

/-- One broken rule at one place. -/
structure Finding where
  rule : String
  severity : Severity
  location : Location
  message : String
  criterion : String
  code : String := ""
  suggestion : Option String := none
  labels : List Label := []
  deriving DecidableEq, Repr

namespace Finding

/-- The block of lines that shows a finding to a person. -/
def format (f : Finding) : String :=
  f.location.file ++ ":" ++ toString f.location.line ++ " [" ++ f.rule ++ "]\n"
    ++ "  " ++ Text.upper f.severity.name ++ ": " ++ f.message ++ "\n"
    ++ "  WCAG: " ++ f.criterion ++ "\n"
    ++ (if f.code.isEmpty then "" else "  Code: " ++ f.code ++ "\n")
    ++ String.join (f.labels.map fun label =>
        "  = note: line " ++ toString label.location.line ++ ": " ++ label.message ++ "\n")
    ++ (match f.suggestion with
        | some text => "  = help: " ++ text ++ "\n"
        | none => "")

/-- File, line and column between colons. -/
def place (f : Finding) : String :=
  f.location.file ++ ":" ++ toString f.location.line ++ ":" ++ toString f.location.column

/-- Place, severity, rule and message on one line. -/
def compact (f : Finding) : String :=
  f.place ++ ": " ++ f.severity.name ++ " [" ++ f.rule ++ "] " ++ f.message

/-- A finding on one line, with its criterion. -/
def display (f : Finding) : String :=
  f.compact ++ " (WCAG " ++ f.criterion ++ ")"

/-- Order of findings in a report: by file, then by line. -/
def compare (a b : Finding) : Ordering :=
  (Path.compare a.location.file b.location.file).then
    (Ord.compare a.location.line b.location.line)

/-- Whether `a` may stand before `b` in a sorted report. -/
def le (a b : Finding) : Bool :=
  (a.compare b).isLE

end Finding

end AccessAudit
