import AccessAudit.Markup.Tree
import AccessAudit.Text.Blank

/-!
# Parsers

A parser gives the syntax tree of a source or, if the syntax is wrong, a tree in which faulty nodes
are marked.  Which sources it accepts is its own affair: readers, scans and commands work with any
parser, and what a result needs to know of one is an assumption of that result.  A wrong source is
reported at the first faulty node in document order.
-/

namespace AccessAudit.Markup

/-- The two dialects of source files. -/
inductive Dialect where
  | tsx
  | jsx
  deriving DecidableEq, Repr

/-! ### Trees of wrong sources -/

/-- What is wrong at a node. -/
inductive Fault where
  | unexpected
  | missing (token : String)
  deriving DecidableEq, Repr

/-- The syntax tree of a wrong source. -/
inductive FaultyTree where
  /-- A node with its fault, the line and the column in bytes at which it begins, both counted from
  1, its text and its children. -/
  | node (fault : Option Fault) (line column : Nat) (text : String) (children : List FaultyTree)

namespace FaultyTree

/-- The fault of the root. -/
def fault : FaultyTree → Option Fault
  | .node fault _ _ _ _ => fault

/-- Line on which the tree begins. -/
def line : FaultyTree → Nat
  | .node _ line _ _ _ => line

/-- Column at which the tree begins. -/
def column : FaultyTree → Nat
  | .node _ _ column _ _ => column

/-- Text of the tree. -/
def text : FaultyTree → String
  | .node _ _ _ text _ => text

mutual

/-- Number of nodes. -/
def size : FaultyTree → Nat
  | .node _ _ _ _ children => 1 + sizeAll children

/-- Number of nodes of several trees. -/
def sizeAll : List FaultyTree → Nat
  | [] => 0
  | t :: ts => size t + sizeAll ts

end

@[simp]
theorem sizeAll_append (ts us : List FaultyTree) :
  sizeAll (ts ++ us) = sizeAll ts + sizeAll us
  := by
  induction ts with
  | nil => simp [sizeAll]
  | cons t ts ih => simp [sizeAll, ih, Nat.add_assoc]

mutual

/-- Whether there is a fault at the root or below it. -/
def hasFault : FaultyTree → Bool
  | .node fault _ _ _ children => fault.isSome || anyFault children

/-- Whether there is a fault in one of several trees. -/
def anyFault : List FaultyTree → Bool
  | [] => false
  | t :: ts => t.hasFault || anyFault ts

end

/-- The first tree with a fault at its root among those that are still to be seen and what is below
them.  Trees without faults are not entered. -/
def firstFaulty? : List FaultyTree → Option FaultyTree
  | [] => none
  | .node fault line column text children :: rest =>
    if fault.isSome then some (.node fault line column text children)
    else if anyFault children then firstFaulty? (children ++ rest)
    else firstFaulty? rest
termination_by pending => sizeAll pending
decreasing_by
  all_goals
    simp only [sizeAll, size, sizeAll_append]
    omega

/-- The tree at which a wrong source is reported. -/
def culprit (t : FaultyTree) : FaultyTree :=
  (firstFaulty? [t]).getD t

/-! ### Reports -/

/-- The longest part of an unexpected text that is shown. -/
def snippetLength : Nat :=
  24

/-- The beginning of a text's first line. -/
def snippet (text : String) : String :=
  String.ofList (Text.trim ((text.toList.takeWhile (· != '\n')).take snippetLength))

/-- The wording of what is wrong at a tree. -/
def message (t : FaultyTree) : String :=
  match t.fault with
  | some (.missing token) => "missing \x60" ++ token ++ "\x60"
  | _ =>
    if (snippet t.text).isEmpty then "syntax error"
    else "unexpected \x60" ++ snippet t.text ++ "\x60"

end FaultyTree

/-- The report of a wrong source. -/
structure SyntaxError where
  path : String
  /-- Line of the fault, counted from 1. -/
  line : Nat
  /-- Column of the fault in bytes, counted from 1. -/
  column : Nat
  message : String
  deriving DecidableEq, Repr

namespace SyntaxError

/-- The report in one line. -/
def display (e : SyntaxError) : String :=
  "Parse error in " ++ e.path ++ ":" ++ toString e.line ++ ":" ++ toString e.column ++ ": "
    ++ e.message

/-- The report of a wrong source that stands at a path. -/
def ofFaults (path : String) (t : FaultyTree) : SyntaxError where
  path := path
  line := t.culprit.line
  column := t.culprit.column
  message := t.culprit.message

end SyntaxError

/-! ### Parsers -/

/-- A way to parse sources of both dialects. -/
structure Parser where
  parse : Dialect → String → Except FaultyTree Tree

end AccessAudit.Markup
