import AccessAudit.Contrast.Judgement
import AccessAudit.Document
import AccessAudit.Markup.Headings
import AccessAudit.Markup.Landmarks
import AccessAudit.Rule.Catalog

/-!
# Structural rules

Rules that look at the elements of a page.  Their findings name a line and no column, and quote
that line of the document.
-/

namespace AccessAudit.Rule

open Markup

/-- A rule that looks at the elements of a page. -/
structure StructuralRule where
  id : String
  name : String
  description : String
  findings : Document → Page → List Finding

/-- A finding on a line of a document, with that line as its code. -/
def onLine (d : Document) (rule : String) (severity : Severity) (line : Nat)
    (message criterion : String) : Finding :=
  { rule := rule
    severity := severity
    location := d.location line 0
    message := message
    criterion := criterion
    code := d.lineText line }

/-- A clickable container without a role, at a given severity. -/
def roleFinding (severity : Severity) (d : Document) (e : Element) : Finding :=
  { onLine d "interactive-role" severity e.line
      ("Clickable <" ++ e.tag ++ "> has no role; use <button> or add role=\"button\"")
      nameRoleValue with
    suggestion := some
      "Replace with <button type=\"button\"> or add role and tabIndex=\x7b0\x7d" }

/-- Clickable containers need a role. -/
def interactiveRole (severity : Severity) : StructuralRule where
  id := "interactive-role"
  name := "Interactive Role"
  description := "Clickable div/span elements must declare a role"
  findings d page := (page.elements.filter Element.lacksRole).map (roleFinding severity d)

/-- A form control without a label. -/
def labelFinding (d : Document) (e : Element) : Finding :=
  { onLine d "form-control-label" .high e.line ("<" ++ e.tag ++ "> has no associated label")
      labelsOrInstructions with
    suggestion := some "Add an id referenced by <label htmlFor>, or aria-label" }

/-- Form controls need a label. -/
def formControlLabel : StructuralRule where
  id := "form-control-label"
  name := "Form Control Label"
  description := "Form controls need an id for <label htmlFor> or an ARIA label"
  findings d page := (page.elements.filter Element.lacksLabel).map (labelFinding d)

/-- An image without a text. -/
def altFinding (d : Document) (e : Element) : Finding :=
  { onLine d "image-alt" .critical e.line "Image has no alt attribute" nonTextContent with
    suggestion := some "Describe the image in alt, or use alt=\"\" if it is decorative" }

/-- Images need a text. -/
def imageAlt : StructuralRule where
  id := "image-alt"
  name := "Image Alt"
  description := "Images must carry an alt attribute"
  findings d page := (page.elements.filter Element.lacksAlt).map (altFinding d)

/-- A button without a name. -/
def buttonFinding (d : Document) (e : Element) : Finding :=
  { onLine d "button-label" .high e.line "Button has no accessible name" nameRoleValue with
    suggestion := some "Add text content or aria-label" }

/-- Buttons need a name. -/
def buttonLabel : StructuralRule where
  id := "button-label"
  name := "Button Label"
  description := "Buttons need visible content or an ARIA label"
  findings d page := (page.elements.filter Element.lacksContent).map (buttonFinding d)

/-- The least of some lines, 1 if there are none. -/
def firstLine (lines : List Nat) : Nat :=
  lines.min?.getD 1

/-- The further places of a fault: all lines of several `h1` but the first. -/
def issueLabels (d : Document) (issue : HeadingIssue) : List Label :=
  match issue.kind with
  | .severalTop => (issue.lines.drop 1).map fun line => ⟨d.location line 0, "another h1"⟩
  | _ => []

/-- How a fault in the headings might be mended. -/
def issueSuggestion? (issue : HeadingIssue) : Option String :=
  match issue.kind with
  | .missingTop => some "Add one h1 naming the page"
  | .severalTop => some "Keep one h1 and demote the others to h2"
  | .skippedLevel => none

/-- The finding of a fault, on its first line or else on the line of the first heading. -/
def headingFinding (d : Document) (firstHeading : Nat) (issue : HeadingIssue) : Finding :=
  { onLine d "heading-structure" issue.severity (issue.lines.head?.getD firstHeading)
      issue.message infoAndRelationships with
    suggestion := issueSuggestion? issue
    labels := issueLabels d issue }

/-- A page with headings has one `h1` and skips no level. -/
def headingStructure : StructuralRule where
  id := "heading-structure"
  name := "Heading Structure"
  description := "Pages need exactly one h1 and no skipped heading levels"
  findings d page :=
    if page.headings.isEmpty then []
    else
      (headingReport page.headings).issues.map
        (headingFinding d (firstLine (page.headings.map Element.line)))

/-- Landmark tags in angle brackets, with commas between them. -/
def landmarkList (tags : List String) : String :=
  ", ".intercalate (tags.map fun tag => "<" ++ tag ++ ">")

/-- A page with landmarks has all that are required. -/
def landmarkRegions : StructuralRule where
  id := "landmark-regions"
  name := "Landmark Regions"
  description := "Pages should provide header, nav, main and footer landmarks"
  findings d page :=
    let missing := missingLandmarks page.landmarks
    if page.landmarks.isEmpty || missing.isEmpty then []
    else
      [{ onLine d "landmark-regions" .medium 1
          ("Page is missing landmark regions: " ++ landmarkList missing) infoAndRelationships with
        suggestion := some "Wrap page regions in semantic landmark elements" }]

/-- The finding of an element whose classes declare two colours of too little contrast. -/
def contrastFinding? (d : Document) (e : Element) : Option Finding := do
  let classes ← (e.attributes.get? "className").bind Value.literal?
  let colours := ClassList.colours classes
  let type := ClassList.typography classes
  let outcome ← check (colours.foreground.map Swatch.rgb) (colours.background.map Swatch.rgb)
    type.fontSize type.fontWeight .aa
  let suggestions := suggestSwatches colours.foreground colours.background
  if outcome.valid then none
  else
    some { onLine d "color-contrast" .high e.line outcome.message contrastMinimum with
      suggestion := if suggestions.isEmpty then none else some ("; ".intercalate suggestions) }

/-- Text and background colours of an element's classes contrast enough. -/
def colorContrast : StructuralRule where
  id := "color-contrast"
  name := "Color Contrast"
  description := "Text and background utility colors must meet WCAG AA contrast"
  findings d page := page.elements.filterMap (contrastFinding? d)

/-- All structural rules. -/
def structuralRules : List StructuralRule :=
  [interactiveRole .high, formControlLabel, imageAlt, buttonLabel, headingStructure,
   landmarkRegions, colorContrast]

end AccessAudit.Rule
