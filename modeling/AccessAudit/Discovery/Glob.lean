import AccessAudit.Discovery.Suffix

/-!
# Glob patterns

A pattern describes paths.  A question mark stands for one character and an asterisk for any number,
slashes included; two asterisks stand for whole directories and have to be a component of their own;
brackets hold a set of characters.  Letters count with their case.
-/

namespace AccessAudit.Discovery

/-- A part of a glob pattern. -/
inductive GlobToken where
  | char (c : Char)
  | any
  | sequence
  | directories
  | set (negated : Bool) (ranges : List (Char × Char))
  deriving DecidableEq, Repr

/-- A glob pattern. -/
abbrev Glob := List GlobToken

namespace Glob

/-! ### Reading -/

/-- The ranges of a set: two characters with a hyphen between them, or single characters. -/
def ranges : List Char → List (Char × Char)
  | a :: '-' :: b :: rest => (a, b) :: ranges rest
  | a :: rest => (a, a) :: ranges rest
  | [] => []

/-- Where the reading of a pattern stands. -/
inductive Mode where
  /-- Outside of brackets; the flag says whether a component begins here. -/
  | outside (edge : Bool)
  /-- Inside of brackets, with the characters read so far, the last one first. -/
  | inside (negated : Bool) (seen : List Char)

/-- Reads a pattern from some place on. -/
def readFrom : Mode → List Char → Option Glob
  | .outside _, [] => some []
  | .outside _, '*' :: '*' :: '*' :: _ => none
  | .outside true, ['*', '*'] => some [.directories]
  | .outside true, '*' :: '*' :: '/' :: rest =>
    (readFrom (.outside true) rest).map (.directories :: ·)
  | .outside _, '*' :: '*' :: _ => none
  | .outside _, '*' :: rest => (readFrom (.outside false) rest).map (.sequence :: ·)
  | .outside _, '?' :: rest => (readFrom (.outside false) rest).map (.any :: ·)
  | .outside _, '[' :: '!' :: c :: rest => readFrom (.inside true [c]) rest
  | .outside _, '[' :: c :: rest => if c = '!' then none else readFrom (.inside false [c]) rest
  | .outside _, ['['] => none
  | .outside _, c :: rest => (readFrom (.outside (c == '/')) rest).map (.char c :: ·)
  | .inside _ _, [] => none
  | .inside negated seen, ']' :: rest =>
    (readFrom (.outside false) rest).map (.set negated (ranges seen.reverse) :: ·)
  | .inside negated seen, c :: rest => readFrom (.inside negated (c :: seen)) rest

/-- Reads a pattern; some texts are none. -/
def read? (text : String) : Option Glob :=
  readFrom (.outside true) text.toList

/-! ### Matching -/

/-- Whether a pattern describes the whole of a text. -/
def covers : Glob → List Char → Bool
  | [], s => s.isEmpty
  | .char c :: rest, s =>
    match s with
    | x :: s => x == c && covers rest s
    | [] => false
  | .any :: rest, s =>
    match s with
    | _ :: s => covers rest s
    | [] => false
  | .set negated ranges :: rest, s =>
    match s with
    | x :: s => (inRanges ranges x != negated) && covers rest s
    | [] => false
  | .sequence :: rest, s => (suffixes s).any (covers rest)
  | .directories :: rest, s => (s :: afterSlashes s ++ [[]]).any (covers rest)

end Glob

end AccessAudit.Discovery
