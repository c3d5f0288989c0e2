import AccessAudit.Text.Affix
import AccessAudit.Text.Blank
import AccessAudit.Text.Fold

/-!
# Paths

A path is a text of pieces between slashes, and is compared by its components: empty pieces and
inner dots say nothing, a leading slash and a leading dot are components of their own.  Taking a
path relative to a root removes the root's components from its front and leaves the spelling of the
rest as it is.
-/

namespace AccessAudit.Path

/-- One component of a path. -/
inductive Component where
  /-- The leading slash. -/
  | top
  | here
  | parent
  | name (text : String)
  deriving DecidableEq, Repr

/-- Rank of the kinds of components in comparisons. -/
def Component.rank : Component → Nat
  | .top => 0
  | .here => 1
  | .parent => 2
  | .name _ => 3

/-- Order of components: by kind, names by their characters. -/
def Component.compare : Component → Component → Ordering
  | .name a, .name b => if a < b then .lt else if b < a then .gt else .eq
  | a, b => Ord.compare a.rank b.rank

/-- The component at the very beginning of a path, if it is a slash or a dot, and the pieces after
it. -/
def split (path : String) : Option Component × List (List Char) :=
  match path.toList with
  | '/' :: body => (some .top, Text.pieces (· == '/') body)
  | body =>
    match Text.pieces (· == '/') body with
    | ['.'] :: rest => (some .here, [] :: rest)
    | parts => (none, parts)

/-- A piece that says nothing: an empty one or a dot. -/
def isIdle (piece : List Char) : Bool :=
  piece.isEmpty || piece == ['.']

/-- The component that a piece stands for. -/
def ofPiece? (piece : List Char) : Option Component :=
  if isIdle piece then none
  else if piece = ['.', '.'] then some .parent
  else some (.name (String.ofList piece))

/-- The components of a path. -/
def components (path : String) : List Component :=
  (split path).1.toList ++ (split path).2.filterMap ofPiece?

/-- Comparison component by component. -/
def compareAll : List Component → List Component → Ordering
  | [], [] => .eq
  | [], _ :: _ => .lt
  | _ :: _, [] => .gt
  | a :: as, b :: bs => (a.compare b).then (compareAll as bs)

/-- Order of paths, by their components. -/
def compare (a b : String) : Ordering :=
  compareAll (components a) (components b)

/-! ### Relative paths -/

/-- The pieces after the first `n` that say something. -/
def dropComponents : Nat → List (List Char) → List (List Char)
  | 0, parts => parts
  | _ + 1, [] => []
  | n + 1, part :: parts =>
    if isIdle part then dropComponents (n + 1) parts else dropComponents n parts

/-- Pieces without those at the end that say nothing. -/
def trimPieces (parts : List (List Char)) : List (List Char) :=
  (parts.reverse.dropWhile isIdle).reverse

/-- Pieces with slashes between them. -/
def joinPieces (parts : List (List Char)) : List Char :=
  List.intercalate ['/'] parts

/-- The text of what begins a path. -/
def startText : Option Component → List Char
  | some .top => ['/']
  | some .here => ['.']
  | _ => []

/-- The text of a path after its first `n` components. -/
def after (n : Nat) (path : String) : String :=
  let (start, parts) := split path
  if n = 0 then String.ofList (startText start ++ joinPieces (trimPieces parts))
  else
    let parts := dropComponents (n - start.toList.length) parts
    String.ofList (joinPieces (trimPieces (parts.dropWhile isIdle)))

/-- A path as seen from a root that its components begin with; any other path as it is. -/
def relativeTo (root path : String) : String :=
  if ((Text.rest? (components root) (components path)).isSome) then
    after (components root).length path
  else path

/-- A path below a directory; a path with a leading slash stands for itself. -/
def join (directory path : String) : String :=
  if (Text.after? "/" path).isSome || directory.isEmpty then path
  else if directory.toList.getLast? = some '/' then directory ++ path
  else directory ++ "/" ++ path

/-! ### Names -/

/-- The last component, if it is a name. -/
def fileName? (path : String) : Option String :=
  match (components path).getLast? with
  | some (.name text) => some text
  | _ => none

/-- The part of a file name after its last dot; a dot at the beginning does not count. -/
def extensionOf? (name : String) : Option String :=
  let (back, rest) := name.toList.reverse.span (· != '.')
  if rest.length ≤ 1 then none else some (String.ofList back.reverse)

/-- The extension of a path's file name. -/
def extension? (path : String) : Option String :=
  (fileName? path).bind extensionOf?

end AccessAudit.Path
