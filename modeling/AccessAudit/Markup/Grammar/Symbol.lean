/-!
# Rule names

The names of the grammar's rules, and through them all places where the grammar is recursive.
-/

namespace AccessAudit.Markup.Grammar

/-- The rules of the grammar. -/
inductive Symbol where
  | program
  | statement
  | block
  | declaration
  /-- Expressions with commas between them. -/
  | expressions
  | assignment
  | operand
  | postfixed
  | primary
  | parenthesized
  | arrow
  | arguments
  | template
  | object
  | spread
  | propertyName
  | method
  | classTail
  | decorators
  | signature
  | parameters
  | pattern
  | markup
  | tagName
  | attribute
  | container
  | type
  | indexedType
  | objectType
  /-- Type arguments. -/
  | typeArguments
  | typeParameters
  deriving DecidableEq, Repr

end AccessAudit.Markup.Grammar
