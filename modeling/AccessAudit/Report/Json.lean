import AccessAudit.Json.Reader
import AccessAudit.Report.Basic

/-!
# Reports as JSON

A report is written as an object with its fields in a fixed order; a suggestion, labels and failed
files are left out when there are none.  It is read back from such a text, from one with further
members or another order of members, and from arrays in place of objects; a member given twice is
refused.
-/

namespace AccessAudit

namespace Json

/-- The values of the named fields of a record.  A record is an object in which no field is given
twice, or an array of values in the order of the fields. -/
def record? (names : List String) : Json → Option (List (Option Json))
  | .object members =>
    if names.any fun name => 1 < (members.filter fun entry => entry.1 == name).length then none
    else some (names.map fun name => List.lookup name members)
  | .array items =>
    if items.length ≤ names.length then
      some (items.map some ++ List.replicate (names.length - items.length) none)
    else none
  | _ => none

/-- A string. -/
def string? : Json → Option String
  | .string text => some text
  | _ => none

/-- A whole number of at most 64 bits. -/
def natural? : Json → Option Nat
  | .number n =>
    if n.integral && !n.negative && n.magnitude.exponent == 0
        && n.magnitude.mantissa < Nat.pow 2 64 then
      some n.magnitude.mantissa
    else none
  | _ => none

/-- An array of values of one kind. -/
def list? {α : Type} (item? : Json → Option α) : Json → Option (List α)
  | .array items => items.mapM item?
  | _ => none

/-- A name, or an object whose one member has that name and the value null. -/
def variant? : Json → Option String
  | .string name => some name
  | .object [(name, .null)] => some name
  | _ => none

end Json

namespace Location

/-- A place as JSON. -/
def toJson (l : Location) : Json :=
  .object [("file", .string l.file), ("line", .ofNat l.line), ("column", .ofNat l.column)]

/-- A place from JSON. -/
def ofJson? (v : Json) : Option Location := do
  match ← v.record? ["file", "line", "column"] with
  | [some file, some line, some column] =>
    some ⟨← file.string?, ← line.natural?, ← column.natural?⟩
  | _ => none

end Location

namespace Label

/-- A labelled place as JSON. -/
def toJson (l : Label) : Json :=
  .object [("location", l.location.toJson), ("message", .string l.message)]

/-- A labelled place from JSON. -/
def ofJson? (v : Json) : Option Label := do
  match ← v.record? ["location", "message"] with
  | [some location, some message] => some ⟨← Location.ofJson? location, ← message.string?⟩
  | _ => none

end Label

namespace Finding

/-- A suggestion as JSON. -/
def suggestionToJson (text : String) : Json :=
  .object [("message", .string text)]

/-- A suggestion from JSON. -/
def suggestionOfJson? (v : Json) : Option String := do
  match ← v.record? ["message"] with
  | [some message] => message.string?
  | _ => none

/-- A suggestion that may be missing or null. -/
def optionalSuggestion? : Option Json → Option (Option String)
  | none => some none
  | some .null => some none
  | some v => (suggestionOfJson? v).map some

/-- Labels that may be missing. -/
def optionalLabels? : Option Json → Option (List Label)
  | none => some []
  | some v => v.list? Label.ofJson?

/-- A finding as JSON. -/
def toJson (f : Finding) : Json :=
  .object <|
    [("rule", .string f.rule), ("severity", .string f.severity.name),
     ("location", f.location.toJson), ("message", .string f.message),
     ("wcag_ref", .string f.criterion), ("code", .string f.code)]
    ++ (match f.suggestion with
        | some text => [("suggestion", suggestionToJson text)]
        | none => [])
    ++ (if f.labels.isEmpty then [] else [("labels", .array (f.labels.map Label.toJson))])

/-- A finding from JSON. -/
def ofJson? (v : Json) : Option Finding := do
  match ← v.record? ["rule", "severity", "location", "message", "wcag_ref", "code", "suggestion",
      "labels"] with
  | [some rule, some severity, some location, some message, some criterion, some code,
      suggestion, labels] =>
    some {
      rule := ← rule.string?
      severity := ← severity.variant? >>= Severity.ofName?
      location := ← Location.ofJson? location
      message := ← message.string?
      criterion := ← criterion.string?
      code := ← code.string?
      suggestion := ← optionalSuggestion? suggestion
      labels := ← optionalLabels? labels }
  | _ => none

end Finding

namespace Report

/-- A report as JSON. -/
def toJson (r : Report) : Json :=
  .object <|
    [("violations", .array (r.violations.map Finding.toJson)),
     ("warnings", .array (r.warnings.map Finding.toJson)),
     ("files_scanned", .ofNat r.scanned)]
    ++ (if r.failed.isEmpty then [] else [("files_failed", .array (r.failed.map Json.string))])

/-- Failed files that may be missing. -/
def optionalFiles? : Option Json → Option (List String)
  | none => some []
  | some v => v.list? Json.string?

/-- A report from JSON.  The buckets are taken as they are given. -/
def ofJson? (v : Json) : Option Report := do
  match ← v.record? ["violations", "warnings", "files_scanned", "files_failed"] with
  | [some violations, some warnings, some scanned, failed] =>
    some {
      violations := ← violations.list? Finding.ofJson?
      warnings := ← warnings.list? Finding.ofJson?
      scanned := ← scanned.natural?
      failed := ← optionalFiles? failed }
  | _ => none

/-- The text of a report as JSON, with a line feed at its end. -/
def jsonText (r : Report) : String :=
  r.toJson.pretty ++ "\n"

/-- Reads a report from the text of a JSON value. -/
def read? (text : String) : Option Report :=
  (Json.read? text).bind ofJson?

end Report

end AccessAudit
