import AccessAudit.Markup.Element
import AccessAudit.Report.Finding

/-!
# Heading hierarchy

A page has exactly one `h1`, and a heading is at most one level deeper than the heading before it.
Headings are taken in the order of their lines.
-/

namespace AccessAudit.Markup

/-- Kinds of faults in the headings of a page. -/
inductive HeadingIssueKind where
  /-- There is no `h1`. -/
  | missingTop
  /-- There are several `h1`. -/
  | severalTop
  | skippedLevel
  deriving DecidableEq, Repr

/-- The name of a kind of fault. -/
def HeadingIssueKind.name : HeadingIssueKind → String
  | .missingTop => "missing-h1"
  | .severalTop => "multiple-h1"
  | .skippedLevel => "skipped-level"

/-- One fault in the headings of a page. -/
structure HeadingIssue where
  kind : HeadingIssueKind
  message : String
  severity : Severity
  /-- Lines involved: every `h1` if there are several, the deeper heading of a skipped level. -/
  lines : List Nat
  deriving DecidableEq, Repr

/-- A heading's level and line. -/
structure Heading where
  level : Nat
  line : Nat
  deriving DecidableEq, Repr

/-- The heading that an element is. -/
def Element.heading? (e : Element) : Option Heading :=
  e.headingLevel?.map fun level => ⟨level, e.line⟩

/-- The headings among some elements, in the order of their lines. -/
def outline (elements : List Element) : List Heading :=
  (elements.filterMap Element.heading?).mergeSort fun a b => decide (a.line ≤ b.line)

/-- The lines of the headings of level 1. -/
def topLines (headings : List Heading) : List Nat :=
  (headings.filter fun h => h.level == 1).map Heading.line

/-- The fault in the number of `h1` headings. -/
def topIssues (lines : List Nat) : List HeadingIssue :=
  match lines with
  | [] => [⟨.missingTop, "Page should have exactly one h1 heading", .high, []⟩]
  | [_] => []
  | _ => [⟨.severalTop,
      "Page has " ++ toString lines.length ++ " h1 headings, should have exactly one",
      .high, lines⟩]

/-- The faults of headings that come after one of the level `previous`, or after none if that is 0:
a heading must not be more than one level deeper than the one before it. -/
def skippedIssues (previous : Nat) : List Heading → List HeadingIssue
  | [] => []
  | h :: rest =>
    if 0 < previous ∧ previous + 1 < h.level then
      ⟨.skippedLevel,
        "Heading level skipped: h" ++ toString h.level ++ " after h" ++ toString previous,
        .medium, [h.line]⟩ :: skippedIssues h.level rest
    else skippedIssues h.level rest

/-- All faults of an outline. -/
def outlineIssues (headings : List Heading) : List HeadingIssue :=
  topIssues (topLines headings) ++ skippedIssues 0 headings

/-- The faults in the headings among some elements. -/
def headingIssues (elements : List Element) : List HeadingIssue :=
  outlineIssues (outline elements)

/-- What is said of the headings of a page. -/
structure HeadingReport where
  valid : Bool
  issues : List HeadingIssue
  headingCount : Nat
  /-- Number of `h1` headings. -/
  topCount : Nat
  deriving DecidableEq, Repr

/-- The report on the headings among some elements. -/
def headingReport (elements : List Element) : HeadingReport where
  valid := (headingIssues elements).isEmpty
  issues := headingIssues elements
  headingCount := (outline elements).length
  topCount := (topLines (outline elements)).length

end AccessAudit.Markup
