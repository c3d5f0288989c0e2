/-!
# Ranges of code points

A set of characters given as a list of closed intervals of code points.  The character properties
of this library (blanks, decimal digits, word characters, characters that are written escaped) are
such lists, each in a module of its own.
-/

namespace AccessAudit.Text

/-- A set of characters, as closed intervals of code points in increasing order. -/
abbrev Ranges := List (Nat × Nat)

/-- Membership of a character in a list of intervals. -/
def Ranges.contains (table : Ranges) (c : Char) : Bool :=
  table.any fun range => range.1 ≤ c.toNat && c.toNat ≤ range.2

theorem Ranges.contains_iff {table : Ranges} {c : Char} :
  table.contains c = true ↔ ∃ range ∈ table, range.1 ≤ c.toNat ∧ c.toNat ≤ range.2
  := by
  simp [Ranges.contains]

end AccessAudit.Text
