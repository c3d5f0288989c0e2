import AccessAudit.Text.Fold

/-!
# Elements

A markup element with the attributes that static reading can resolve, the components that a source
declares, and the page they make up.
-/

namespace AccessAudit.Markup

/-- What is known of an attribute's value. -/
inductive Value where
  | string (text : String)
  | boolean (value : Bool)
  | number (value : Float)
  | expression
  /-- Something that is no scalar, such as an element. -/
  | none

/-- The literal string of a value. -/
def Value.literal? : Value → Option String
  | .string text => some text
  | _ => Option.none

/-- The text of a value: a literal string, or a mark that stands for an unknown expression. -/
def Value.text? : Value → Option String
  | .string text => some text
  | .expression => some "\x7bexpression\x7d"
  | _ => Option.none

/-- Attributes by name, each name once. -/
abbrev Attributes := List (String × Value)

namespace Attributes

/-- Sets an attribute, in place of an earlier one of the same name. -/
def insert (attributes : Attributes) (name : String) (value : Value) : Attributes :=
  attributes.filter (fun entry => entry.1 != name) ++ [(name, value)]

/-- The value of an attribute. -/
def get? (attributes : Attributes) (name : String) : Option Value :=
  List.lookup name attributes

/-- Whether an attribute is present. -/
def has (attributes : Attributes) (name : String) : Bool :=
  (attributes.get? name).isSome

end Attributes

/-- The attribute name that records spread attributes. -/
def spreadName : String :=
  "...spread"

/-- One markup element. -/
structure Element where
  /-- Tag name, `Outer.Inner` for a member, or `unknown`. -/
  tag : String
  /-- Line of its opening tag, counted from 1. -/
  line : Nat
  attributes : Attributes
  hasChildren : Bool
  /-- Whether it is written `<tag />`. -/
  selfClosing : Bool

namespace Element

/-- Whether an element has the given tag, without regard to the case of ASCII letters. -/
def hasTag (e : Element) (tag : String) : Bool :=
  Text.sameLetters e.tag tag

/-- Whether an element has one of the given tags. -/
def hasAnyTag (e : Element) (tags : List String) : Bool :=
  tags.any e.hasTag

/-- Whether an attribute is present. -/
def has (e : Element) (name : String) : Bool :=
  e.attributes.has name

/-- Whether the element names itself by `aria-label` or `aria-labelledby`. -/
def hasAccessibleName (e : Element) : Bool :=
  e.has "aria-label" || e.has "aria-labelledby"

/-- The level of a heading `h1` to `h6`. -/
def headingLevel? (e : Element) : Option Nat :=
  match e.tag.toList with
  | [h, d] =>
    if (h = 'h' ∨ h = 'H') ∧ '1' ≤ d ∧ d ≤ '6' then some (d.toNat - '0'.toNat) else none
  | _ => none

/-- The tags of landmark regions. -/
def landmarkTags : List String :=
  ["header", "nav", "main", "aside", "footer", "section", "article"]

/-- The landmark that an element is, in small letters. -/
def landmark? (e : Element) : Option String :=
  let tag := Text.lower e.tag
  if landmarkTags.contains tag then some tag else none

end Element

/-- How a component is declared. -/
inductive ComponentKind where
  | function
  | arrow
  deriving DecidableEq, Repr

/-- A function that produces markup. -/
structure Component where
  /-- Declared name, or `Anonymous`. -/
  name : String
  kind : ComponentKind
  line : Nat
  deriving DecidableEq, Repr

/-- Texts in increasing order, each once. -/
def sortedSet (texts : List String) : List String :=
  (texts.mergeSort fun a b => !(b < a : Bool)).eraseDups

/-- What was read from one source: its elements in document order and its components. -/
structure Page where
  elements : List Element
  components : List Component

/-- The heading elements of a page. -/
def Page.headings (page : Page) : List Element :=
  page.elements.filter fun e => e.headingLevel?.isSome

/-- The landmarks of a page, sorted. -/
def Page.landmarks (page : Page) : List String :=
  sortedSet (page.elements.filterMap Element.landmark?)

/-! ### Queries -/

/-- Whether an element reacts to clicks. -/
def Element.isClickable (e : Element) : Bool :=
  e.attributes.any fun entry => Text.sameLetters entry.1 "onclick"

/-- Clickable `div` and `span` elements without a role. -/
def Element.lacksRole (e : Element) : Bool :=
  e.hasAnyTag ["div", "span"] && e.isClickable && !e.has "role"

/-- Form controls with neither an `id` nor an accessible name. -/
def Element.lacksLabel (e : Element) : Bool :=
  e.hasAnyTag ["input", "select", "textarea"] && !e.has "id" && !e.hasAccessibleName

/-- Images without an `alt` attribute; an empty one counts as present. -/
def Element.lacksAlt (e : Element) : Bool :=
  e.hasTag "img" && !e.has "alt"

/-- Buttons with neither an accessible name nor content. -/
def Element.lacksContent (e : Element) : Bool :=
  e.hasTag "button" && !e.hasAccessibleName && !e.hasChildren

end AccessAudit.Markup
