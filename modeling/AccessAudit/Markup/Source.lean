import AccessAudit.Markup.Components
import AccessAudit.Markup.Elements
import AccessAudit.Markup.Parser
import AccessAudit.Path

/-!
# Sources

A source of either dialect is read into the page of its elements and components, by way of the tree
that a parser gives.
-/

namespace AccessAudit.Markup

/-- The page that a syntax tree holds. -/
def Page.ofTree (t : Tree) : Page :=
  ⟨t.elements, t.components⟩

/-- Reads the source that stands at a path with a parser. -/
def Page.read (parser : Parser) (d : Dialect) (path source : String) : Except SyntaxError Page :=
  match parser.parse d source with
  | .ok t => .ok (.ofTree t)
  | .error faults => .error (.ofFaults path faults)

/-- A way to read sources of one kind. -/
structure Reader where
  name : String
  extensions : List String
  read : (path source : String) → Except SyntaxError Page

namespace Reader

/-- Whether a reader reads the file at a path: its extension is one of the reader's, in letters of
either case. -/
def handles (reader : Reader) (path : String) : Bool :=
  (Path.extension? path).any fun extension => reader.extensions.any (Text.sameLetters extension)

/-- The reader of a dialect. -/
def ofDialect (parser : Parser) : Dialect → Reader
  | .tsx => ⟨"tsx", ["tsx"], Page.read parser .tsx⟩
  | .jsx => ⟨"jsx", ["jsx"], Page.read parser .jsx⟩

/-- The readers of both dialects. -/
def builtin (parser : Parser) : List Reader :=
  [ofDialect parser .tsx, ofDialect parser .jsx]

/-- The first of some readers that reads the file at a path. -/
def find? (readers : List Reader) (path : String) : Option Reader :=
  readers.find? fun reader => reader.handles path

end Reader

end AccessAudit.Markup
