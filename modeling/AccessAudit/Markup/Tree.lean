/-!
# Syntax trees

A source is read into a tree of named nodes.  A node has a kind, the role it plays for its parent,
the lines on which it begins and ends, and, where it matters, its text.  Kinds that carry nothing
of interest to the extraction of elements and components are `other`.
-/

namespace AccessAudit.Markup

/-- What a node of the tree is. -/
inductive Kind where
  | element
  /-- An element in one tag, `<img />`. -/
  | selfClosing
  | openingTag
  | closingTag
  | attribute
  | container
  /-- A name with a namespace, `xlink:href`. -/
  | namespaced
  | text
  | identifier
  /-- A member reference, `a.b`. -/
  | member
  | string
  /-- The literal `true`. -/
  | true
  /-- The literal `false`. -/
  | false
  | number
  /-- A spread, `...props`. -/
  | spread
  | comment
  | functionDeclaration
  /-- A declaration by `let` or `const`. -/
  | lexicalDeclaration
  /-- A declaration by `var`. -/
  | variableDeclaration
  | declarator
  | arrowFunction
  | functionExpression
  | export_
  | return_
  | parenthesized
  | other
  deriving DecidableEq, Repr

/-- The kinds by the names that grammars of the language family give to their nodes. -/
def kindNames : List (String × Kind) :=
  [("jsx_element", .element), ("jsx_self_closing_element", .selfClosing),
   ("jsx_opening_element", .openingTag), ("jsx_closing_element", .closingTag),
   ("jsx_attribute", .attribute), ("jsx_expression", .container),
   ("jsx_namespace_name", .namespaced), ("jsx_text", .text), ("identifier", .identifier),
   ("property_identifier", .identifier), ("member_expression", .member),
   ("nested_identifier", .member), ("string", .string), ("true", .true), ("false", .false),
   ("number", .number), ("spread_element", .spread), ("comment", .comment),
   ("function_declaration", .functionDeclaration),
   ("generator_function_declaration", .functionDeclaration),
   ("lexical_declaration", .lexicalDeclaration), ("variable_declaration", .variableDeclaration),
   ("variable_declarator", .declarator), ("arrow_function", .arrowFunction),
   ("function_expression", .functionExpression), ("function", .functionExpression),
   ("export_statement", .export_), ("return_statement", .return_),
   ("parenthesized_expression", .parenthesized)]

/-- The kind of a node name; `other` for a name that is not listed. -/
def Kind.ofName (name : String) : Kind :=
  (List.lookup name kindNames).getD .other

/-- What a node is for its parent. -/
inductive Role where
  | plain
  | openTag
  | name
  | value
  | declaration
  deriving DecidableEq, Repr

/-- A syntax tree. -/
inductive Tree where
  | node (kind : Kind) (role : Role) (first last : Nat) (text : String) (children : List Tree)

namespace Tree

/-- Kind of the root. -/
def kind : Tree → Kind
  | .node kind _ _ _ _ _ => kind

/-- Role of the root. -/
def role : Tree → Role
  | .node _ role _ _ _ _ => role

/-- Line on which the tree begins. -/
def first : Tree → Nat
  | .node _ _ first _ _ _ => first

/-- Line on which the tree ends. -/
def last : Tree → Nat
  | .node _ _ _ last _ _ => last

/-- Text of the root, where it is kept. -/
def text : Tree → String
  | .node _ _ _ _ text _ => text

/-- Children of the root. -/
def children : Tree → List Tree
  | .node _ _ _ _ _ children => children

/-- The tree with another role. -/
def withRole (r : Role) : Tree → Tree
  | .node kind _ first last text children => .node kind r first last text children

/-- The first child with a role. -/
def child? (t : Tree) (r : Role) : Option Tree :=
  t.children.find? fun c => c.role == r

/-- The children that are not comments. -/
def parts (t : Tree) : List Tree :=
  t.children.filter fun c => c.kind != .comment

mutual

/-- Number of nodes. -/
def size : Tree → Nat
  | .node _ _ _ _ _ children => 1 + sizeAll children

/-- Number of nodes of several trees. -/
def sizeAll : List Tree → Nat
  | [] => 0
  | t :: ts => size t + sizeAll ts

end

@[simp]
theorem sizeAll_append (ts us : List Tree) :
  sizeAll (ts ++ us) = sizeAll ts + sizeAll us
  := by
  induction ts with
  | nil => simp [sizeAll]
  | cons t ts ih => simp [sizeAll, ih, Nat.add_assoc]

theorem size_eq (t : Tree) :
  t.size = 1 + sizeAll t.children
  := by
  cases t
  simp [size, children]

@[simp]
theorem sizeAll_reverse (ts : List Tree) :
  sizeAll ts.reverse = sizeAll ts
  := by
  induction ts with
  | nil => rfl
  | cons t ts ih => simp [sizeAll, ih, Nat.add_comm]

/-- A member of a list of trees has no more nodes than all of them. -/
theorem size_le_sizeAll {t : Tree} {ts : List Tree} (h : t ∈ ts) :
  t.size ≤ sizeAll ts
  := by
  induction ts with
  | nil => cases h
  | cons u ts ih =>
    simp only [sizeAll]
    cases h with
    | head => omega
    | tail _ h => have := ih h; omega

theorem size_lt_of_child? {t c : Tree} {r : Role} (h : t.child? r = some c) :
  c.size < t.size
  := by
  have := size_le_sizeAll (List.mem_of_find?_eq_some h)
  rw [size_eq t]
  omega

end Tree

end AccessAudit.Markup
