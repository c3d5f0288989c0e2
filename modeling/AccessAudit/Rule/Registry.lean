import AccessAudit.Rule.Line
import AccessAudit.Rule.Structural

/-!
# The built-in rules

Structural rules first, then the line rules of the catalogue.
-/

namespace AccessAudit

/-- A rule of either kind, by what it finds on a document and its page. -/
structure Rule where
  id : String
  name : String
  description : String
  findings : Document → Markup.Page → List Finding

namespace Rule

/-- A structural rule as a rule. -/
def ofStructural (r : StructuralRule) : Rule :=
  ⟨r.id, r.name, r.description, r.findings⟩

/-- A line rule as a rule; it does not look at the page. -/
def ofLine (r : LineRule) : Rule :=
  ⟨r.id, r.name, r.description, fun d _ => r.findings d⟩

/-- All built-in rules. -/
def builtin : List Rule :=
  structuralRules.map ofStructural ++ catalog.map ofLine

/-- The ids of all built-in rules. -/
def builtinIds : List String :=
  builtin.map Rule.id

end Rule

end AccessAudit
