import AccessAudit.Markup.Grammar.Rules
import AccessAudit.Markup.Parser
import AccessAudit.Text.Lines

/-!
# Diagnoses of wrong sources

A source that the grammars do not read is diagnosed by the smallest repair that makes it readable: a
closing bracket that stands too much, or one that is missing before a semicolon or at the end.
-/

namespace AccessAudit.Markup.Grammar

/-- A faulty node after a text. -/
def faultyAfter (before : List Char) (fault : Fault) (text : List Char) : FaultyTree :=
  .node (some fault) (Text.lines before).length
    (Text.byteLength ((Text.lines before).getLastD []) + 1) (String.ofList text) []

/-- A character of a text with what stands before it and after it. -/
structure Cut where
  before : List Char
  char : Char
  after : List Char

/-- The cuts of a text at the characters that satisfy a test. -/
def cuts (test : Char → Bool) (source : List Char) : List Cut :=
  source.zipIdx.filterMap fun (c, i) =>
    if test c then some ⟨source.take i, c, source.drop (i + 1)⟩ else none

/-- Closing brackets. -/
def isCloser (c : Char) : Bool :=
  c == '\x7d' || c == ')' || c == ']' || c == '>'

/-- A bracket too much: with a semicolon in its place the source can be read.  In text between tags
it takes the rest of the text with it, which shows by a backslash being good in its place, too. -/
def stray? (d : Dialect) (cut : Cut) : Option FaultyTree :=
  let readable (x : Char) : Bool := (parse? d (cut.before ++ x :: cut.after)).isSome
  if !readable ';' then none
  else if readable '\\' then
    some (faultyAfter cut.before .unexpected (cut.char :: cut.after.takeWhile isTextChar))
  else some (faultyAfter cut.before .unexpected [cut.char])

/-- The bracket that is missing between two texts. -/
def missing? (d : Dialect) (brackets before after : List Char) : Option FaultyTree :=
  (brackets.find? fun x => (parse? d (before ++ x :: after)).isSome).map fun x =>
    faultyAfter (Text.trimEnd before) (.missing (String.singleton x)) []

/-- The fault of a source that cannot be read. -/
def diagnose (d : Dialect) (source : List Char) : FaultyTree :=
  let strays := (cuts isCloser source).reverse.findSome? (stray? d)
  let gaps := (cuts (· == ';') source).findSome? fun cut =>
    missing? d [')', ']'] cut.before (cut.char :: cut.after)
  let atEnd := missing? d ['\x7d'] source []
  (strays.or (gaps.or atEnd)).getD (faultyAfter [] .unexpected [])

end AccessAudit.Markup.Grammar
