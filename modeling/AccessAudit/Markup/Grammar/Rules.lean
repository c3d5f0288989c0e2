import AccessAudit.Markup.Grammar.Elements
import AccessAudit.Markup.Grammar.Statements

/-!
# The grammars of the two dialects
-/

namespace AccessAudit.Markup.Grammar

/-- The rules of the dialect with types. -/
def typedRules : Symbol → Expr Symbol
  | .program => programRule
  | .statement => statementRule .tsx
  | .block => blockRule
  | .declaration => declarationRule .tsx
  | .expressions => expressionsRule
  | .assignment => assignmentRule .tsx
  | .operand => operandRule .tsx
  | .postfixed => postfixedRule .tsx
  | .primary => primaryRule .tsx
  | .parenthesized => parenthesizedRule .tsx
  | .arrow => arrowRule
  | .arguments => argumentsRule
  | .template => templateRule
  | .object => objectRule
  | .spread => spreadRule
  | .propertyName => propertyNameRule
  | .method => methodRule .tsx
  | .classTail => classTailRule .tsx
  | .decorators => decoratorsRule
  | .signature => signatureRule .tsx
  | .parameters => parametersRule .tsx
  | .pattern => patternRule
  | .markup => markupRule .tsx
  | .tagName => tagNameRule
  | .attribute => attributeRule
  | .container => containerRule
  | .type => typeRule
  | .indexedType => indexedTypeRule
  | .objectType => objectTypeRule .tsx
  | .typeArguments => typeArgumentsRule
  | .typeParameters => typeParametersRule

/-- The rules of the dialect without types. -/
def plainRules : Symbol → Expr Symbol
  | .program => programRule
  | .statement => statementRule .jsx
  | .block => blockRule
  | .declaration => declarationRule .jsx
  | .expressions => expressionsRule
  | .assignment => assignmentRule .jsx
  | .operand => operandRule .jsx
  | .postfixed => postfixedRule .jsx
  | .primary => primaryRule .jsx
  | .parenthesized => parenthesizedRule .jsx
  | .arrow => arrowRule
  | .arguments => argumentsRule
  | .template => templateRule
  | .object => objectRule
  | .spread => spreadRule
  | .propertyName => propertyNameRule
  | .method => methodRule .jsx
  | .classTail => classTailRule .jsx
  | .decorators => decoratorsRule
  | .signature => signatureRule .jsx
  | .parameters => parametersRule .jsx
  | .pattern => patternRule
  | .markup => markupRule .jsx
  | .tagName => tagNameRule
  | .attribute => attributeRule
  | .container => containerRule
  | .type => typeRule
  | .indexedType => indexedTypeRule
  | .objectType => objectTypeRule .jsx
  | .typeArguments => typeArgumentsRule
  | .typeParameters => typeParametersRule

/-- The rules of a dialect. -/
def rules : Dialect → Symbol → Expr Symbol
  | .tsx => typedRules
  | .jsx => plainRules

/-- The number of nested steps that reading a source may take. -/
def stepLimit (source : List Char) : Nat :=
  1000 * (source.length + 1)

/-- Reads a whole source; its top-level statements are the children of the tree. -/
def parse? (d : Dialect) (source : List Char) : Option Tree :=
  match run (rules d) (stepLimit source) (.node .other (.rule .program)) (.start source) with
  | .ok s => s.nodes.head?
  | _ => none

end AccessAudit.Markup.Grammar
