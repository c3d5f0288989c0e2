import AccessAudit.Decimal.Basic
import AccessAudit.Markup.Element
import AccessAudit.Markup.Tree
import AccessAudit.Text.Affix
import AccessAudit.Text.Radix

/-!
# Values of literals

What an attribute's value is without running the program: the text of a string, a truth value, or a
number.  Comments and parentheses around a literal do not matter.
-/

namespace AccessAudit.Markup

/-! ### Numbers -/

/-- A number below `2 ^ 64` as a double. -/
def wholeValue? (n : Nat) : Option Float :=
  if n < Nat.pow 2 64 then some n.toUInt64.toFloat else none

/-- The value of digits of a radix after their mark. -/
def radixValue? (mark : String) (radix : Nat) (text : List Char) : Option Float := do
  let digits ← Text.rest? mark.toList text
  let n ← Text.natural? radix digits
  wholeValue? n

/-- The value of a number literal: hexadecimal, octal or binary below `2 ^ 64`, or decimal.
Underscores between digits say nothing. -/
def numberValue? (text : String) : Option Float :=
  let digits := (text.toList.filter (· != '_')).map Char.toLower
  (radixValue? "0x" 16 digits).or
    ((radixValue? "0o" 8 digits).or
      ((radixValue? "0b" 2 digits).or (Decimal.readFloat? digits)))

/-! ### Strings -/

/-- What stands between two quotes of one kind. -/
def between? (quote : Char) (s : List Char) : Option (List Char) :=
  match s with
  | c :: rest => if c = quote ∧ rest.getLast? = some quote then some rest.dropLast else none
  | [] => none

/-- A text without the quotes around it. -/
def unquote (text : String) : String :=
  match (between? '"' text.toList).or (between? '\'' text.toList) with
  | some inner => String.ofList inner
  | none => text

/-! ### Values -/

/-- The first tree that is no comment, without the parentheses around it. -/
def content? : List Tree → Option Tree
  | [] => none
  | t :: rest =>
    if t.kind = .comment then content? rest
    else if t.kind = .parenthesized then content? t.children
    else some t
termination_by ts => Tree.sizeAll ts
decreasing_by
  all_goals simp only [Tree.sizeAll, Tree.size_eq]; omega

/-- The value of an expression, if it is a literal. -/
def Value.ofLiteral (t : Tree) : Value :=
  match t.kind with
  | .string => .string (unquote t.text)
  | .true => .boolean true
  | .false => .boolean false
  | .number => (numberValue? t.text).elim .expression .number
  | _ => .expression

/-- The value of the trees in braces. -/
def Value.ofBraces (inside : List Tree) : Value :=
  (content? inside).elim .expression .ofLiteral

/-- The value of a tree after the equality sign of an attribute. -/
def Value.ofTree (t : Tree) : Value :=
  match t.kind with
  | .string => .string (unquote t.text)
  | .container => .ofBraces t.children
  | _ => .none

end AccessAudit.Markup
