import AccessAudit.Discovery.Suffix
import AccessAudit.Text.Affix
import AccessAudit.Text.Lines

/-!
# Ignore files

A line of an ignore file is a pattern of paths below the directory of the file.  A pattern without a
slash describes names in any directory, one that ends in a slash only directories, and one after an
exclamation mark takes paths back.  Of the patterns that describe a path the last one decides.
-/

namespace AccessAudit.Discovery

/-- A part of an ignore pattern. -/
inductive IgnoreToken where
  | char (c : Char)
  /-- Any one character but a slash. -/
  | any
  /-- Any characters but slashes. -/
  | sequence
  | leading
  | below
  | between
  | set (negated : Bool) (ranges : List (Char × Char))
  deriving DecidableEq, Repr

/-- One pattern of an ignore file. -/
structure IgnorePattern where
  tokens : List IgnoreToken
  keeps : Bool
  directoriesOnly : Bool
  deriving DecidableEq, Repr

namespace IgnorePattern

/-! ### Reading -/

/-- The part of a list after its first member. -/
def replaceHead {α : Type} (a : α) : List α → List α
  | [] => [a]
  | _ :: rest => a :: rest

/-- Parts in which the last one, a slash, becomes directories. -/
def putDirectories (token : IgnoreToken) : List IgnoreToken → List IgnoreToken
  | .leading :: rest => .leading :: rest
  | tokens => replaceHead token tokens

/-- Where the reading of a pattern stands. -/
inductive Mode where
  | outside (before : Option Char)
  /-- Inside of brackets: the ranges so far, the last one first, and whether a hyphen is open. -/
  | inside (negated : Bool) (ranges : List (Char × Char)) (hyphen : Bool)

/-- Reads a pattern after some parts, the last one first. -/
def readFrom : Mode → List IgnoreToken → List Char → Option (List IgnoreToken)
  | .outside _, tokens, [] => some tokens.reverse
  | .outside _, [], ['*', '*'] => some [.leading, .sequence]
  | .outside _, [], '*' :: '*' :: '/' :: rest => readFrom (.outside (some '/')) [.leading] rest
  | .outside (some '/'), tokens, ['*', '*'] => some (putDirectories .below tokens).reverse
  | .outside (some '/'), tokens, '*' :: '*' :: '/' :: rest =>
    readFrom (.outside (some '/')) (putDirectories .between tokens) rest
  | .outside _, tokens, '*' :: rest => readFrom (.outside (some '*')) (.sequence :: tokens) rest
  | .outside _, tokens, '?' :: rest => readFrom (.outside (some '?')) (.any :: tokens) rest
  | .outside _, _, ['\\'] => none
  | .outside _, tokens, '\\' :: c :: rest => readFrom (.outside (some c)) (.char c :: tokens) rest
  | .outside before, tokens, '[' :: rest =>
    if rest.contains ']' then
      match rest with
      | '!' :: c :: rest => readFrom (.inside true [(c, c)] false) tokens rest
      | '^' :: c :: rest => readFrom (.inside true [(c, c)] false) tokens rest
      | c :: rest => readFrom (.inside false [(c, c)] false) tokens rest
      | [] => none
    else readFrom (.outside before) (.char '[' :: tokens) rest
  | .outside _, tokens, c :: rest => readFrom (.outside (some c)) (.char c :: tokens) rest
  | .inside _ _ _, _, [] => none
  | .inside negated ranges hyphen, tokens, ']' :: rest =>
    let ranges := if hyphen then ('-', '-') :: ranges else ranges
    readFrom (.outside (some ']')) (.set negated ranges.reverse :: tokens) rest
  | .inside negated ranges false, tokens, '-' :: rest =>
    readFrom (.inside negated ranges true) tokens rest
  | .inside negated ranges false, tokens, c :: rest =>
    readFrom (.inside negated ((c, c) :: ranges) false) tokens rest
  | .inside negated ((low, _) :: ranges) true, tokens, c :: rest =>
    if c < low then none else readFrom (.inside negated ((low, c) :: ranges) false) tokens rest
  | .inside _ [] true, _, _ :: _ => none

/-- A line without the blanks at its end; an escaped blank there keeps them all. -/
def trimLine (line : List Char) : List Char :=
  if (Text.rest? [' ', '\\'] line.reverse).isSome then line else Text.trimEnd line

/-- The text of a pattern without the mark that takes paths back, and whether it was there.  A
backslash before such a mark or before a number sign takes its meaning away. -/
def splitMark : List Char → Bool × List Char
  | '\\' :: '!' :: rest => (false, '!' :: rest)
  | '\\' :: '#' :: rest => (false, '#' :: rest)
  | '!' :: rest => (true, rest)
  | rest => (false, rest)

/-- The text of a pattern without the slash in front of it, and whether it was there. -/
def splitAnchor : List Char → Bool × List Char
  | '/' :: rest => (true, rest)
  | rest => (false, rest)

/-- The text of a pattern without the slash at its end, and whether it was there. -/
def splitSlash (s : List Char) : Bool × List Char :=
  match s.reverse with
  | '/' :: '\\' :: rest => (true, rest.reverse)
  | '/' :: rest => (true, rest.reverse)
  | _ => (false, s)

/-- The text of a pattern with what its position says: any directory in front if it has no slash,
and everything inside if it ends in two asterisks. -/
def spellOut (anchored : Bool) (s : List Char) : List Char :=
  let s := if anchored || s.contains '/' || s == ['*', '*'] then s else ['*', '*', '/'] ++ s
  if (Text.rest? ['*', '*', '/'] s.reverse).isSome then s ++ ['/', '*'] else s

/-- Reads a line; comments, blank lines and wrong patterns are none. -/
def read? (line : List Char) : Option IgnorePattern :=
  let line := if line.head? = some '#' then [] else trimLine line
  if line.isEmpty then none
  else
    let (keeps, text) := splitMark line
    let (anchored, text) := splitAnchor text
    let (directoriesOnly, text) := splitSlash text
    (readFrom (.outside none) [] (spellOut anchored text)).map fun tokens =>
      ⟨tokens, keeps, directoriesOnly⟩

/-- Reads an ignore file. -/
def readAll (text : String) : List IgnorePattern :=
  let s := match text.toList with
    | '\ufeff' :: rest => rest
    | s => s
  (Text.lines s).filterMap read?

/-! ### Matching -/

/-- Whether parts describe the whole of a path. -/
def covers : List IgnoreToken → List Char → Bool
  | [], s => s.isEmpty
  | .char c :: rest, s =>
    match s with
    | x :: s => x == c && covers rest s
    | [] => false
  | .any :: rest, s =>
    match s with
    | x :: s => x != '/' && covers rest s
    | [] => false
  | .set negated ranges :: rest, s =>
    match s with
    | x :: s => (inRanges ranges x != negated) && covers rest s
    | [] => false
  | .sequence :: rest, s => (suffixesInSegment s).any (covers rest)
  | .leading :: rest, s => (s :: afterSlashes s).any (covers rest)
  | .below :: rest, s =>
    match s with
    | '/' :: s => (suffixes s).any (covers rest)
    | _ => false
  | .between :: rest, s =>
    match s with
    | '/' :: s => (s :: afterSlashes s).any (covers rest)
    | _ => false

/-- Whether a pattern describes a path. -/
def describes (p : IgnorePattern) (path : List Char) (isDirectory : Bool) : Bool :=
  (isDirectory || !p.directoriesOnly) && covers p.tokens path

/-- Whether the last of some patterns that describes a path takes it back; absent if none describes
it. -/
def verdict? (patterns : List IgnorePattern) (path : List Char) (isDirectory : Bool) :
    Option Bool :=
  (patterns.reverse.find? fun p => p.describes path isDirectory).map IgnorePattern.keeps

end IgnorePattern

end AccessAudit.Discovery
