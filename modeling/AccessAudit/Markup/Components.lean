import AccessAudit.Markup.Element
import AccessAudit.Markup.Tree

/-!
# Components of a tree

The top-level functions of a source that produce markup.
-/

namespace AccessAudit.Markup

/-- Whether a tree is an element with a name. -/
def Tree.isMarkup (t : Tree) : Bool :=
  match t.kind with
  | .selfClosing => true
  | .element => (t.child? .openTag).any fun tag => (tag.child? .name).isSome
  | _ => false

/-- The first of some trees, without the parentheses around it. -/
def returned? : List Tree → Option Tree
  | [] => none
  | t :: _ => if t.kind = .parenthesized then returned? t.children else some t
termination_by ts => Tree.sizeAll ts
decreasing_by
  simp only [Tree.sizeAll, Tree.size_eq]
  omega

/-- Whether a tree returns markup right away. -/
def Tree.returnsMarkup (t : Tree) : Bool :=
  t.kind == .return_ && (returned? t.children).any Tree.isMarkup

/-- Whether there is markup in the trees that are still to be seen.  The end of a function comes
first, for that is where it returns its markup. -/
def anyMarkup : List Tree → Bool
  | [] => false
  | t :: rest =>
    t.isMarkup || t.returnsMarkup || anyMarkup (t.children.reverse ++ rest)
termination_by pending => Tree.sizeAll pending
decreasing_by
  simp only [Tree.sizeAll, Tree.size_eq, Tree.sizeAll_append, Tree.sizeAll_reverse]
  omega

/-- Whether there is markup inside a tree. -/
def Tree.producesMarkup (t : Tree) : Bool :=
  anyMarkup t.children.reverse

/-- Whether a tree is a function used as a value. -/
def Tree.isCallable (t : Tree) : Bool :=
  t.kind == .arrowFunction || t.kind == .functionExpression

/-- The name of a component without a name. -/
def anonymous : String :=
  "Anonymous"

/-- The text of a tree's name. -/
def Tree.nameText (t : Tree) : String :=
  (t.child? .name).elim anonymous Tree.text

/-- The component that a name of a declaration stands for. -/
def declaratorComponent? (t : Tree) : Option Component := do
  guard (t.kind == .declarator)
  let value ← t.child? .value
  guard (value.isCallable && value.producesMarkup)
  let name := (t.child? .name).filter fun n => n.kind == .identifier
  return ⟨name.elim anonymous Tree.text, .arrow, t.first⟩

/-- The component that the value of an export stands for; it is reported at the export. -/
def valueComponent? (line : Nat) (value : Tree) : Option Component := do
  guard (value.isCallable && value.producesMarkup)
  return ⟨value.nameText, if value.kind = .arrowFunction then .arrow else .function, line⟩

/-- The components that a declaration or an export declares. -/
def Tree.declared : Tree → List Component
  | .node kind role first last text children =>
    let t := Tree.node kind role first last text children
    match kind with
    | .functionDeclaration =>
      if t.producesMarkup then [⟨t.nameText, .function, first⟩] else []
    | .lexicalDeclaration | .variableDeclaration => children.filterMap declaratorComponent?
    | .export_ =>
      match _h : t.child? .declaration with
      | some declaration => declaration.declared
      | none => ((t.child? .value).bind (valueComponent? first)).toList
    | _ => []
termination_by t => t.size
decreasing_by
  exact Tree.size_lt_of_child? _h

/-- The components of a whole source: those of its top-level statements. -/
def Tree.components (t : Tree) : List Component :=
  t.children.flatMap Tree.declared

end AccessAudit.Markup
