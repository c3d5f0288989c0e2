import AccessAudit.Discovery.Glob
import AccessAudit.Path

/-!
# Excluded files

A file is excluded by a pattern that describes its path, and by one that is the name of one of the
path's components once the parts that stand for any directories are taken off.
-/

namespace AccessAudit.Discovery

/-- A pattern of files to leave out. -/
structure Exclusion where
  text : String
  glob : Glob
  deriving DecidableEq, Repr

namespace Exclusion

/-- Reads a pattern. -/
def read? (text : String) : Option Exclusion :=
  (Glob.read? text).map fun glob => ⟨text, glob⟩

/-- A text without the occurrences of a part, found from left to right; some characters are still
to be skipped. -/
def erase (part : List Char) : Nat → List Char → List Char
  | _, [] => []
  | skip + 1, _ :: s => erase part skip s
  | 0, c :: s =>
    if (Text.rest? part (c :: s)).isSome then erase part (part.length - 1) s
    else c :: erase part 0 s

/-- The pattern without the parts that stand for any directories. -/
def segment (e : Exclusion) : List Char :=
  erase "/**".toList 0 (erase "**/".toList 0 e.text.toList)

/-- The spelling of a component. -/
def componentText : Path.Component → List Char
  | .top => ['/']
  | .here => ['.']
  | .parent => ['.', '.']
  | .name text => text.toList

/-- Whether the pattern is the name of a component of a path. -/
def namesSegment (e : Exclusion) (path : String) : Bool :=
  !e.segment.isEmpty && !e.segment.contains '*'
    && (Path.components path).any fun c => componentText c == e.segment

/-- Whether the pattern describes a path. -/
def describes (e : Exclusion) (path : String) : Bool :=
  let text := path.toList
  e.glob.covers ((Text.rest? ['.', '/'] text).getD text)

end Exclusion

/-- Whether one of some patterns excludes a path. -/
def isExcluded (patterns : List Exclusion) (path : String) : Bool :=
  patterns.any (·.describes path) || patterns.any (·.namesSegment path)

end AccessAudit.Discovery
