import AccessAudit.Markup.Tree
import AccessAudit.Text.Blank

/-!
# Grammars and their interpreter

A grammar maps rule names to expressions: characters, texts, sequences, ordered choices,
repetitions, looks ahead, and nodes.  The interpreter reads an expression at a place of the source
and either fails or moves on, keeping the nodes that it has built.  A choice takes its first
alternative that succeeds, and a repetition takes as much as it can.
-/

namespace AccessAudit.Markup.Grammar

/-! ### Places in a source -/

/-- A place in a source: what is still to be read, how many characters and which line it is at. -/
structure Cursor where
  /-- Text after the place. -/
  rest : List Char
  /-- Number of characters before the place. -/
  offset : Nat
  /-- Line of the place, counted from 1. -/
  line : Nat

namespace Cursor

/-- The beginning of a source. -/
def start (source : List Char) : Cursor :=
  ⟨source, 0, 1⟩

/-- The place after a character. -/
def step (c : Cursor) (x : Char) (rest : List Char) : Cursor :=
  ⟨rest, c.offset + 1, if x = '\n' then c.line + 1 else c.line⟩

/-- The place after as many characters of a class as there are. -/
def skipWhile (test : Char → Bool) (c : Cursor) : Cursor :=
  go c.rest c
where
  /-- Goes on from a place whose rest is given. -/
  go : List Char → Cursor → Cursor
    | [], c => c
    | x :: rest, c => if test x then go rest (c.step x rest) else c

/-- The place after a text, if the text stands there. -/
def skipText? : List Char → Cursor → Option Cursor
  | [], c => some c
  | x :: s, c =>
    match c.rest with
    | y :: rest => if x = y then skipText? s (c.step y rest) else none
    | [] => none

end Cursor

/-! ### Gaps -/

/-- Characters that separate tokens: blanks, the byte order mark, the word joiner and the
zero-width space. -/
def isGap (c : Char) : Bool :=
  Text.isBlank c || c == '\ufeff' || c == '\u2060' || c == '\u200b'

/-- Characters that end a line of the source. -/
def isLineBreak (c : Char) : Bool :=
  c == '\n' || c == '\u2028' || c == '\u2029'

/-- Characters that end a line comment. -/
def endsLine (c : Char) : Bool :=
  c == '\r' || isLineBreak c

/-- Where the reading of a gap stands. -/
inductive GapMode where
  /-- Between blanks and comments. -/
  | blank
  /-- After a slash that may open a comment; the place before it is kept. -/
  | slash (opening : Cursor)
  /-- Inside a line comment. -/
  | line (opening : Cursor)
  /-- Inside a block comment; the flag says whether the last character was an asterisk. -/
  | block (opening : Cursor) (star : Bool)

/-- What stands between two tokens. -/
structure Gap where
  /-- The place of the next token. -/
  cursor : Cursor
  /-- The comments in the gap, the last one first. -/
  comments : List Tree
  /-- Whether a line ends in the gap outside of block comments. -/
  newline : Bool

/-- A comment from one place to another. -/
def comment (opening closing : Cursor) : Tree :=
  .node .comment .plain opening.line closing.line "" []

/-- Reads a gap.  A block comment that is not closed does not belong to it. -/
def readGap : GapMode → List Tree → Bool → List Char → Cursor → Gap
  | .blank, comments, newline, [], c => ⟨c, comments, newline⟩
  | .blank, comments, newline, x :: rest, c =>
    if isGap x then readGap .blank comments (newline || isLineBreak x) rest (c.step x rest)
    else if x = '/' then readGap (.slash c) comments newline rest (c.step x rest)
    else ⟨c, comments, newline⟩
  | .slash opening, comments, newline, [], _ => ⟨opening, comments, newline⟩
  | .slash opening, comments, newline, x :: rest, c =>
    if x = '/' then readGap (.line opening) comments newline rest (c.step x rest)
    else if x = '*' then readGap (.block opening false) comments newline rest (c.step x rest)
    else ⟨opening, comments, newline⟩
  | .line opening, comments, newline, [], c => ⟨c, comment opening c :: comments, newline⟩
  | .line opening, comments, newline, x :: rest, c =>
    if endsLine x then
      readGap .blank (comment opening c :: comments) (newline || isLineBreak x) rest (c.step x rest)
    else readGap (.line opening) comments newline rest (c.step x rest)
  | .block opening _, comments, newline, [], _ => ⟨opening, comments, newline⟩
  | .block opening star, comments, newline, x :: rest, c =>
    if star && x == '/' then
      let c := c.step x rest
      readGap .blank (comment opening c :: comments) newline rest c
    else readGap (.block opening (x == '*')) comments newline rest (c.step x rest)

/-- The gap at a place. -/
def Cursor.gap (c : Cursor) : Gap :=
  readGap .blank [] false c.rest c

/-! ### Expressions -/

/-- A grammar expression over rule names `σ`. -/
inductive Expr (σ : Type) where
  /-- Nothing. -/
  | empty
  /-- One character of a class. -/
  | char (test : Char → Bool)
  /-- As many characters of a class as there are. -/
  | span (test : Char → Bool)
  /-- A text. -/
  | text (s : List Char)
  /-- Blanks and comments; the comments become nodes. -/
  | gap
  /-- A condition on the text ahead. -/
  | test (holds : List Char → Bool)
  /-- One expression after the other. -/
  | seq (a b : Expr σ)
  /-- The first of two expressions that succeeds. -/
  | alt (a b : Expr σ)
  /-- An expression as often as it succeeds. -/
  | star (e : Expr σ)
  /-- An expression that has to succeed ahead, and reads nothing. -/
  | look (e : Expr σ)
  /-- An expression that must not succeed ahead. -/
  | unless (e : Expr σ)
  /-- An expression as a scope of its own. -/
  | scope (e : Expr σ)
  /-- Nothing; what the scope has read so far becomes one node, with its text if that is to be
  kept. -/
  | close (kind : Kind) (role : Role) (keep : Bool)
  /-- An expression whose nodes play a role. -/
  | role (r : Role) (e : Expr σ)
  /-- The expression of a rule. -/
  | rule (s : σ)

/-- What the interpreter has read: the place it is at, the place where the scope began, and the
nodes built in the scope, the last one first. -/
structure State where
  /-- The place. -/
  cursor : Cursor
  /-- The beginning of the scope. -/
  opening : Cursor
  /-- Nodes, the last one first. -/
  nodes : List Tree

/-- The outcome of reading an expression. -/
inductive Outcome where
  /-- It was read. -/
  | ok (state : State)
  /-- It does not stand here. -/
  | fail
  /-- The number of steps allowed was too small to tell. -/
  | exhausted

/-- The text between two places, of which the second one is not before the first. -/
def textBetween (opening closing : Cursor) : String :=
  String.ofList (opening.rest.take (closing.offset - opening.offset))

namespace State

/-- The beginning of a source. -/
def start (source : List Char) : State :=
  ⟨Cursor.start source, Cursor.start source, []⟩

/-- The state at another place. -/
def moveTo (s : State) (c : Cursor) : State :=
  ⟨c, s.opening, s.nodes⟩

/-- A new scope at the place of a state. -/
def enter (s : State) : State :=
  ⟨s.cursor, s.cursor, []⟩

/-- The state after an inner scope, whose nodes are added. -/
def leave (s inner : State) : State :=
  ⟨inner.cursor, s.opening, inner.nodes ++ s.nodes⟩

/-- The state after an inner scope whose nodes other than comments play a role. -/
def leaveAs (r : Role) (s inner : State) : State :=
  let assign (t : Tree) : Tree := if t.kind == .comment then t else t.withRole r
  ⟨inner.cursor, s.opening, inner.nodes.map assign ++ s.nodes⟩

/-- The state whose scope is one node. -/
def close (kind : Kind) (role : Role) (keep : Bool) (s : State) : State :=
  let text := if keep then textBetween s.opening s.cursor else ""
  ⟨s.cursor, s.opening, [.node kind role s.opening.line s.cursor.line text s.nodes.reverse]⟩

end State

/-- What follows an expression that was read. -/
def Outcome.andThen (outcome : Outcome) (next : State → Outcome) : Outcome :=
  match outcome with
  | .ok s => next s
  | .fail => .fail
  | .exhausted => .exhausted

/-- Reads an expression in at most the given number of nested steps. -/
def run {σ : Type} (grammar : σ → Expr σ) : Nat → Expr σ → State → Outcome
  | 0, _, _ => .exhausted
  | n + 1, e, s =>
    match e with
    | .empty => .ok s
    | .char test =>
      match s.cursor.rest with
      | x :: rest => if test x then .ok (s.moveTo (s.cursor.step x rest)) else .fail
      | [] => .fail
    | .span test => .ok (s.moveTo (s.cursor.skipWhile test))
    | .text t =>
      match s.cursor.skipText? t with
      | some c => .ok (s.moveTo c)
      | none => .fail
    | .gap =>
      let g := s.cursor.gap
      .ok ⟨g.cursor, s.opening, g.comments ++ s.nodes⟩
    | .test holds => if holds s.cursor.rest then .ok s else .fail
    | .seq a b => (run grammar n a s).andThen (run grammar n b)
    | .alt a b =>
      match run grammar n a s with
      | .fail => run grammar n b s
      | outcome => outcome
    | .star e =>
      match run grammar n e s with
      | .ok t => if t.cursor.offset ≤ s.cursor.offset then .ok s else run grammar n (.star e) t
      | .fail => .ok s
      | .exhausted => .exhausted
    | .look e => (run grammar n e s).andThen fun _ => .ok s
    | .unless e =>
      match run grammar n e s with
      | .ok _ => .fail
      | .fail => .ok s
      | .exhausted => .exhausted
    | .scope e => (run grammar n e s.enter).andThen fun t => .ok (s.leave t)
    | .close kind role keep => .ok (s.close kind role keep)
    | .role r e => (run grammar n e s.enter).andThen fun t => .ok (s.leaveAs r t)
    | .rule name => run grammar n (grammar name) s

/-! ### Combinations -/

namespace Expr

variable {σ : Type}

/-- What never succeeds. -/
def never : Expr σ :=
  .test fun _ => false

/-- Expressions one after the other. -/
def inOrder : List (Expr σ) → Expr σ
  | [] => .empty
  | [e] => e
  | e :: es => .seq e (inOrder es)

/-- A node of a kind around what an expression reads. -/
def node (kind : Kind) (e : Expr σ) : Expr σ :=
  .scope (.seq e (.close kind .plain false))

/-- A node of a kind that keeps the text of what an expression reads. -/
def leaf (kind : Kind) (e : Expr σ) : Expr σ :=
  .scope (.seq e (.close kind .plain true))

/-- A node of a kind after a gap, around expressions one after the other. -/
def phrase (kind : Kind) (es : List (Expr σ)) : Expr σ :=
  .seq .gap (node kind (inOrder es))

/-- An expression or nothing. -/
def opt (e : Expr σ) : Expr σ :=
  .alt e .empty

/-- An expression, and a node of a kind around it and its tail if the tail follows. -/
def extend (kind : Kind) (e tail : Expr σ) : Expr σ :=
  .scope (.seq e (opt (.seq tail (.close kind .plain false))))

/-- An expression once or more. -/
def repeated (e : Expr σ) : Expr σ :=
  .seq e (.star e)

/-- An expression once or more, up to a number of times. -/
def upTo : Nat → Expr σ → Expr σ
  | 0, _ => never
  | 1, e => e
  | n + 1, e => .seq e (opt (upTo n e))

/-- The first of several expressions that succeeds. -/
def choice : List (Expr σ) → Expr σ
  | [] => never
  | [e] => e
  | e :: es => .alt e (choice es)

/-- One of several characters. -/
def oneOf (cs : String) : Expr σ :=
  .char fun c => cs.toList.contains c

/-- A token: a text after a gap. -/
def token (s : String) : Expr σ :=
  .seq .gap (.text s.toList)

/-- Expressions with commas between them. -/
def commaSep (e : Expr σ) : Expr σ :=
  .seq e (.star (.seq (token ",") e))

end Expr

end AccessAudit.Markup.Grammar
