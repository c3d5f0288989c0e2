import AccessAudit.Markup.Literal
import AccessAudit.Markup.TagName
import AccessAudit.Text.Blank

/-!
# Elements of a tree

Every element of a syntax tree in document order, an element before those inside it.  Trees may be
deep, so they are visited from a list of trees that are still to be seen.
-/

namespace AccessAudit.Markup

/-! ### Attributes -/

/-- The name and the value of an attribute.  Without a value it is true. -/
def attribute? (t : Tree) : Option (String × Value) :=
  match t.parts with
  | [] => none
  | [name] => some (name.text, .boolean true)
  | name :: value :: _ => some (name.text, .ofTree value)

/-- Whether a container spreads an object over a tag. -/
def isSpread (t : Tree) : Bool :=
  t.children.any fun c => c.kind == .spread

/-- Adds what a child of a tag says about attributes. -/
def addAttribute (attributes : Attributes) (t : Tree) : Attributes :=
  match t.kind with
  | .attribute => (attribute? t).elim attributes fun (name, value) => attributes.insert name value
  | .container =>
    if isSpread t then attributes.insert spreadName (.boolean true) else attributes
  | _ => attributes

/-- The attributes of a tag. -/
def tagAttributes (tag : Tree) : Attributes :=
  tag.children.foldl addAttribute []

/-! ### Elements -/

/-- Whether a child of an element is content: anything but its tags and blank text. -/
def isContent (t : Tree) : Bool :=
  match t.kind with
  | .openingTag | .closingTag => false
  | .text => !t.text.toList.all Text.isBlank
  | _ => true

/-- The element that a tag opens. -/
def elementOf (tag : Tree) (name : TagName) (hasChildren selfClosing : Bool) : Element where
  tag := name.label
  line := tag.first
  attributes := tagAttributes tag
  hasChildren := hasChildren
  selfClosing := selfClosing

/-- The element that a tree is, not counting those inside it.  A fragment is none. -/
def element? (t : Tree) : Option Element :=
  match t.kind with
  | .element => do
    let tag ← t.child? .openTag
    let name ← TagName.ofTag? tag
    return elementOf tag name (t.children.any isContent) false
  | .selfClosing => do
    let name ← TagName.ofTag? t
    return elementOf t name false true
  | _ => none

/-- Adds the elements of the trees that are still to be seen to those found, the last one first. -/
def collect (found : List Element) : List Tree → List Element
  | [] => found.reverse
  | t :: rest => collect ((element? t).toList ++ found) (t.children ++ rest)
termination_by pending => Tree.sizeAll pending
decreasing_by
  simp only [Tree.sizeAll, Tree.size_eq, Tree.sizeAll_append]
  omega

/-- All elements of a tree in document order. -/
def Tree.elements (t : Tree) : List Element :=
  collect [] [t]

end AccessAudit.Markup
