import AccessAudit.Report.Finding
import AccessAudit.Rule.Pattern

/-!
# The catalogue of line checks

Rules that look at one line at a time.  A check has a pattern and texts that excuse it: a match
does not count if one of them stands between the beginning of the match and the next `>`.
-/

namespace AccessAudit.Rule

/-- A pattern and the finding that it gives rise to. -/
structure LineCheck where
  pattern : Pattern
  excuses : List String
  message : String
  criterion : String
  severity : Severity

/-- Checks under one id. -/
structure LineRule where
  id : String
  name : String
  description : String
  /-- Its checks, in the order in which a line is tested. -/
  checks : List LineCheck

/-! ### Success criteria -/

/-- Criterion 4.1.2. -/
def nameRoleValue : String := "4.1.2 Name, Role, Value (Level A)"

/-- Criterion 2.4.3. -/
def focusOrder : String := "2.4.3 Focus Order (Level A)"

/-- Criterion 2.1.1. -/
def keyboard : String := "2.1.1 Keyboard (Level A)"

/-- Criterion 3.3.2. -/
def labelsOrInstructions : String := "3.3.2 Labels or Instructions (Level A)"

/-- Criterion 1.1.1. -/
def nonTextContent : String := "1.1.1 Non-text Content (Level A)"

/-- Criterion 1.3.1. -/
def infoAndRelationships : String := "1.3.1 Info and Relationships (Level A)"

/-- Criterion 1.4.3. -/
def contrastMinimum : String := "1.4.3 Contrast (Minimum) (Level AA)"

/-! ### Patterns -/

/-- The beginning of a tag: `<name` at the end of a word. -/
def tagStart (name : String) : Pattern :=
  .char '<' :: Pattern.text name ++ [.boundary]

/-- Anything up to the end of the tag. -/
def withinTag : Pattern :=
  [.many (.except '>')]

/-- Anything up to the closing quote. -/
def withinQuotes : Pattern :=
  [.many (.except '"')]

/-- A tag that mentions a text. -/
def tagWith (name text : String) : Pattern :=
  tagStart name ++ withinTag ++ Pattern.text text

/-! ### Rules -/

/-- Generic containers used as buttons or links. -/
def semanticHtml : LineRule where
  id := "semantic-html"
  name := "Semantic HTML"
  description := "Flags generic containers used as buttons or links"
  checks :=
    [⟨tagWith "div" "onClick", ["role="],
        "Interactive div should use <button> or have role=\"button\"", nameRoleValue, .high⟩,
     ⟨tagWith "span" "onClick", ["role="],
        "Interactive span should use <button> or have role=\"button\"", nameRoleValue, .high⟩,
     ⟨tagWith "div" "href=", [],
        "Div with href should use <a> element instead", nameRoleValue, .high⟩]

/-- Misspelled and empty attributes. -/
def ariaAttributes : LineRule where
  id := "aria-attributes"
  name := "ARIA Attributes"
  description := "Flags misspelled and empty ARIA attributes"
  checks :=
    [⟨Pattern.text "aria-labeledby=", [],
        "Use aria-labelledby (double \"l\") not aria-labeledby", nameRoleValue, .medium⟩,
     ⟨.char '<' :: withinTag ++ Pattern.text "aria-label=\"\"" ++ [.many .blank] ++ withinTag
          ++ [.char '>'], [],
        "Empty aria-label provides no information", nameRoleValue, .medium⟩]

/-- Positive tab order, and clicks that keys cannot make. -/
def keyboardNavigation : LineRule where
  id := "keyboard-navigation"
  name := "Keyboard Navigation"
  description := "Flags positive tab order and click handlers without key handlers"
  checks :=
    [⟨Pattern.text "tabIndex=" ++ [.optional (.oneOf ['"', '\'']), .one (.range '1' '9'),
          .many .digit, .optional (.oneOf ['"', '\''])], [],
        "Avoid positive tabIndex values (use 0 or -1)", focusOrder, .high⟩,
     ⟨tagWith "div" "onClick", ["onKeyDown", "onKeyPress"],
        "Interactive div needs keyboard handler (onKeyDown)", keyboard, .high⟩]

/-- Form controls without a label. -/
def formLabels : LineRule where
  id := "form-labels"
  name := "Form Labels"
  description := "Flags form controls without an associated label"
  checks :=
    [⟨tagStart "input", ["aria-label", "aria-labelledby", "id="],
        "Input needs associated label (id + htmlFor) or aria-label", labelsOrInstructions, .high⟩,
     ⟨tagWith "input" "placeholder=\"" ++ withinQuotes ++ [.char '"'], ["aria-label", "id="],
        "Placeholder is not a substitute for a label", labelsOrInstructions, .medium⟩,
     ⟨tagStart "select", ["aria-label", "aria-labelledby", "id="],
        "Select needs associated label or aria-label", labelsOrInstructions, .high⟩,
     ⟨tagStart "textarea", ["aria-label", "aria-labelledby", "id="],
        "Textarea needs associated label or aria-label", labelsOrInstructions, .high⟩]

/-- Images and icon buttons without a text. -/
def altText : LineRule where
  id := "alt-text"
  name := "Alternative Text"
  description := "Flags images and icon buttons without a text alternative"
  checks :=
    [⟨tagStart "img", ["alt="],
        "Image must have alt attribute (use alt=\"\" for decorative images)", nonTextContent,
        .critical⟩,
     ⟨tagWith "img" "alt=\"image\"" ++ withinTag ++ [.char '>'], [],
        "Alt text \"image\" is not descriptive", nonTextContent, .medium⟩,
     ⟨tagWith "img" "alt=\"photo\"" ++ withinTag ++ [.char '>'], [],
        "Alt text \"photo\" is not descriptive", nonTextContent, .medium⟩,
     ⟨tagStart "button" ++ withinTag ++ [.char '>', .many .blank, .char '<'] ++ withinTag
          ++ Pattern.text "/>" ++ [.many (.except '<')] ++ Pattern.text "</button>", [],
        "Icon-only button needs aria-label", nameRoleValue, .high⟩]

/-- Headings sized by classes. -/
def headingHierarchy : LineRule where
  id := "heading-hierarchy"
  name := "Heading Hierarchy"
  description := "Flags headings sized with utility classes"
  checks :=
    [⟨[.char '<', .char 'h', .one (.range '1' '6'), .boundary] ++ withinTag
          ++ Pattern.text "className=\"" ++ withinQuotes ++ Pattern.text "text-", [],
        "Use semantic heading levels, not className for sizing", infoAndRelationships, .low⟩]

/-- All rules that look at lines. -/
def catalog : List LineRule :=
  [semanticHtml, ariaAttributes, keyboardNavigation, formLabels, altText, headingHierarchy]

end AccessAudit.Rule
