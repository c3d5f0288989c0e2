import AccessAudit.Markup.Tree
import AccessAudit.Text.Fold

/-!
# Names of tags

A tag is named by a word, by a member reference of two words, or in some other way.
-/

namespace AccessAudit.Markup

/-- The name of a tag. -/
inductive TagName where
  /-- A word, `div` or `Button`. -/
  | plain (name : String)
  /-- A member of an object, `Dialog.Content`. -/
  | member (object property : String)
  | other
  deriving DecidableEq, Repr

namespace TagName

/-- The text by which elements know their tag: words in small letters, members as written. -/
def label : TagName → String
  | .plain name => Text.lower name
  | .member object property => object ++ "." ++ property
  | .other => "unknown"

/-- The member reference of two identifiers. -/
def ofParts : List Tree → TagName
  | [object, property] =>
    if object.kind = .identifier ∧ property.kind = .identifier then
      .member object.text property.text
    else .other
  | _ => .other

/-- The name that a tree spells. -/
def ofTree (name : Tree) : TagName :=
  match name.kind with
  | .identifier => .plain name.text
  | .member => ofParts name.children
  | _ => .other

/-- The name of a tag; the tags of a fragment have none. -/
def ofTag? (tag : Tree) : Option TagName :=
  (tag.child? .name).map ofTree

end TagName

end AccessAudit.Markup
