import AccessAudit.Text.Blank

/-!
# Lines

A text is cut at every line feed; the cut after the last line feed is a line too, so that a text
with `n` line feeds has `n + 1` lines.  A carriage return at the end of a line belongs to the line
break.
-/

namespace AccessAudit.Text

/-- The lines of a text, without their line feeds. -/
def lines (s : List Char) : List (List Char) :=
  pieces (· == '\n') s

/-- A line without one carriage return at its end. -/
def dropReturn (line : List Char) : List Char :=
  if line.getLast? = some '\r' then line.dropLast else line

/-- The number of bytes of a text in UTF-8. -/
def byteLength (s : List Char) : Nat :=
  s.foldl (fun n c => n + c.utf8Size) 0

end AccessAudit.Text
