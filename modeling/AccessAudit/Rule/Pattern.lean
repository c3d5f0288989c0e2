import AccessAudit.Text.Affix
import AccessAudit.Text.Blank
import AccessAudit.Text.Digit
import AccessAudit.Text.Fold
import AccessAudit.Text.Word

/-!
# Line patterns

A pattern is a sequence of pieces: characters compared without regard to case, classes of
characters, optional and repeated classes, and word boundaries.  It is matched from a given place;
a repeated class takes as many characters as it can and gives them back one by one.  Searching a
line goes from left to right, and goes on after the end of a match.
-/

namespace AccessAudit.Rule

/-- A class of characters. -/
inductive CharClass where
  | except (c : Char)
  | oneOf (cs : List Char)
  | range (low high : Char)
  /-- Decimal digits of any script. -/
  | digit
  | blank
  deriving DecidableEq, Repr

/-- Membership in a class. -/
def CharClass.holds : CharClass → Char → Bool
  | .except c, x => x != c
  | .oneOf cs, x => cs.contains x
  | .range low high, x => decide (low ≤ x) && decide (x ≤ high)
  | .digit, x => Text.isDigit x
  | .blank, x => Text.isBlank x

/-- One piece of a pattern. -/
inductive Piece where
  /-- A character, in either case. -/
  | char (c : Char)
  | one (k : CharClass)
  /-- A character of a class, or nothing. -/
  | optional (k : CharClass)
  /-- As many characters of a class as possible, or fewer. -/
  | many (k : CharClass)
  | boundary
  deriving DecidableEq, Repr

/-- A sequence of pieces. -/
abbrev Pattern := List Piece

/-- The pattern of a text. -/
def Pattern.text (s : String) : Pattern :=
  s.toList.map Piece.char

namespace Pattern

/-- A place in a line: the character before it and the text after it. -/
structure Place where
  before : Option Char
  rest : List Char

/-- Tries to go on after every number of characters of a class, the largest number first. -/
def manyThen {β : Type} (k : CharClass) (next : Place → Option β) :
    Option Char → List Char → Option β
  | before, [] => next ⟨before, []⟩
  | before, c :: rest =>
    if k.holds c then
      match manyThen k next (some c) rest with
      | some result => some result
      | none => next ⟨before, c :: rest⟩
    else next ⟨before, c :: rest⟩

/-- The place after the match of a pattern at a place. -/
def matchAt : Pattern → Place → Option Place
  | [], place => some place
  | .char c :: pieces, place =>
    match place.rest with
    | x :: rest => if Text.fold x = Text.fold c then matchAt pieces ⟨some x, rest⟩ else none
    | [] => none
  | .one k :: pieces, place =>
    match place.rest with
    | x :: rest => if k.holds x then matchAt pieces ⟨some x, rest⟩ else none
    | [] => none
  | .optional k :: pieces, place =>
    match place.rest with
    | x :: rest =>
      if k.holds x then
        match matchAt pieces ⟨some x, rest⟩ with
        | some result => some result
        | none => matchAt pieces place
      else matchAt pieces place
    | [] => matchAt pieces place
  | .many k :: pieces, place => manyThen k (matchAt pieces) place.before place.rest
  | .boundary :: pieces, place =>
    if Text.atBoundary place.before place.rest then matchAt pieces place else none

/-- The byte offsets and the texts at which the successive matches of a pattern begin.  The first
`skip` characters lie inside an earlier match. -/
def findFrom (p : Pattern) (skip offset : Nat) (before : Option Char) :
    List Char → List (Nat × List Char)
  | [] => []
  | c :: rest =>
    match skip with
    | skip + 1 => findFrom p skip (offset + c.utf8Size) (some c) rest
    | 0 =>
      match matchAt p ⟨before, c :: rest⟩ with
      | some place =>
        (offset, c :: rest) ::
          findFrom p (rest.length - place.rest.length) (offset + c.utf8Size) (some c) rest
      | none => findFrom p 0 (offset + c.utf8Size) (some c) rest

/-- The successive matches of a pattern in a line. -/
def find (p : Pattern) (line : List Char) : List (Nat × List Char) :=
  findFrom p 0 0 none line

/-! ### Written form -/

/-- A class as it is written. -/
def classSource : CharClass → String
  | .except c => String.ofList ['[', '^', c, ']']
  | .oneOf cs => String.ofList ('[' :: cs ++ [']'])
  | .range low high => String.ofList ['[', low, '-', high, ']']
  | .digit => "\\d"
  | .blank => "\\s"

/-- A piece as it is written. -/
def pieceSource : Piece → String
  | .char c => String.ofList [c]
  | .one k => classSource k
  | .optional k => classSource k ++ "?"
  | .many k => classSource k ++ "*"
  | .boundary => "\\b"

/-- A pattern as it is written. -/
def source (p : Pattern) : String :=
  String.join (p.map pieceSource)

end Pattern

/-- Whether a text stands inside a line, without regard to case. -/
def mentions (text : String) (line : List Char) : Bool :=
  Text.occurs (text.toList.map Text.fold) (line.map Text.fold)

/-- The text up to the next `>`. -/
def tagRest (line : List Char) : List Char :=
  line.takeWhile (· != '>')

end AccessAudit.Rule
