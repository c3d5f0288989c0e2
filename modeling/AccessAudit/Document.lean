import AccessAudit.Report.Finding

/-!
# Documents

A source text with the path under which it is reported: its path relative to the root of the scan.
-/

namespace AccessAudit

/-- A source text under a reported path. -/
structure Document where
  file : String
  rawLines : List (List Char)

namespace Document

/-- The document of a text at a path, seen from a root. -/
def of (root path text : String) : Document :=
  ⟨Path.relativeTo root path, Text.lines text.toList⟩

/-- The lines with their numbers, without a carriage return at their ends. -/
def numberedLines (d : Document) : List (Nat × List Char) :=
  d.rawLines.zipIdx.map fun (line, i) => (i + 1, Text.dropReturn line)

/-- The text of a line without the blanks at its ends; empty if there is no such line. -/
def lineText (d : Document) (line : Nat) : String :=
  match line with
  | 0 => ""
  | i + 1 => String.ofList (Text.trim (d.rawLines[i]?.getD []))

/-- A place in the document. -/
def location (d : Document) (line column : Nat) : Location :=
  ⟨d.file, line, column⟩

end Document

end AccessAudit
