import AccessAudit.Document
import AccessAudit.Rule.Catalog

/-!
# Line rules

How a line rule checks a document: line by line, and on every line check by check.  A check gives
at most one finding a line, at its first match that nothing excuses.
-/

namespace AccessAudit.Rule

/-- Whether something excuses a match that begins with the given text. -/
def LineCheck.excused (check : LineCheck) (rest : List Char) : Bool :=
  check.excuses.any fun text => mentions text (tagRest rest)

/-- The byte offset of the first match that nothing excuses. -/
def LineCheck.firstMatch? (check : LineCheck) (line : List Char) : Option Nat :=
  ((check.pattern.find line).find? fun (_, rest) => !check.excused rest).map Prod.fst

/-- The finding of a check on a line. -/
def LineCheck.finding? (check : LineCheck) (rule : String) (d : Document) (number : Nat)
    (line : List Char) : Option Finding :=
  (check.firstMatch? line).map fun offset =>
    { rule := rule
      severity := check.severity
      location := d.location number (offset + 1)
      message := check.message
      criterion := check.criterion
      code := String.ofList (Text.trim line) }

/-- The findings of a rule on a document. -/
def LineRule.findings (rule : LineRule) (d : Document) : List Finding :=
  d.numberedLines.flatMap fun (number, line) =>
    rule.checks.filterMap fun check => check.finding? rule.id d number line

/-- The line rule with a given id. -/
def lineRule? (id : String) : Option LineRule :=
  catalog.find? fun rule => rule.id == id

end AccessAudit.Rule
