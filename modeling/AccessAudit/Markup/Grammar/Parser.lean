import AccessAudit.Markup.Grammar.Diagnosis

/-!
# The library's own parser

The grammars of this library make up one parser.  It is the one with which the program runs; no
result on scans or commands is about it alone.
-/

namespace AccessAudit.Markup.Grammar

/-- The parser of the grammars of both dialects. -/
def parser : Parser where
  parse d source :=
    match parse? d source.toList with
    | some t => .ok t
    | none => .error (.node none 1 1 source [diagnose d source.toList])

theorem parse_eq_ok_iff {d : Dialect} {source : String} {t : Tree} :
  parser.parse d source = .ok t ↔ parse? d source.toList = some t
  := by
  simp only [parser]
  cases parse? d source.toList <;> simp

end AccessAudit.Markup.Grammar
