import AccessAudit.Data

/-!
# TOML documents

A document is a table that grows by headers and by keys with points in them.  It is remembered how a
table came about, for a table can be opened once by a header, and keys with points extend only
tables that such keys have made.
-/

namespace AccessAudit.Toml

/-- How a table came about. -/
inductive Origin where
  | header
  /-- On the way to a header of another table. -/
  | passing
  /-- On the way to the last part of a key. -/
  | key
  deriving DecidableEq, Repr

/-- An entry of a document under construction. -/
inductive Node where
  | value (data : Data)
  | table (origin : Origin) (entries : List (String × Node))
  /-- A list of tables, the last one first; that one is still growing. -/
  | tables (items : List (List (String × Node)))

/-- The entries of a table under construction. -/
abbrev Entries := List (String × Node)

mutual

/-- The data of a node. -/
def Node.toData : Node → Data
  | .value data => data
  | .table _ entries => .table (entriesData entries)
  | .tables items => .list (tablesData items).reverse

/-- The data of all entries. -/
def entriesData : List (String × Node) → List (String × Data)
  | [] => []
  | (name, node) :: entries => (name, node.toData) :: entriesData entries

/-- The data of several tables. -/
def tablesData : List (List (String × Node)) → List Data
  | [] => []
  | entries :: items => .table (entriesData entries) :: tablesData items

end

/-- Changes a table below others, of which the path gives the names.  Tables that are not there are
made, with the given origin; those that are there have to be open.  The change is told the origin of
the table at the end of the path. -/
def within (made : Origin) (isOpen : Origin → Bool) (change : Origin → Entries → Option Entries) :
    List String → Origin → Entries → Option Entries
  | [], origin, entries => change origin entries
  | name :: path, _, entries =>
    match List.lookup name entries with
    | none => do
      let inner ← within made isOpen change path made []
      some (entries ++ [(name, .table made inner)])
    | some (.table origin inner) =>
      if isOpen origin then do
        let inner ← within made isOpen change path origin inner
        some (Data.put entries name (.table origin inner))
      else none
    | some (.tables (last :: items)) => do
      let last ← within made isOpen change path .header last
      some (Data.put entries name (.tables (last :: items)))
    | some _ => none

/-- Opens the table of a header. -/
def openTable (name : String) (_ : Origin) (entries : Entries) : Option Entries :=
  match List.lookup name entries with
  | none => some (entries ++ [(name, .table .header [])])
  | some (.table .passing inner) => some (Data.put entries name (.table .header inner))
  | some _ => none

/-- Opens one more table of a list of tables. -/
def openItem (name : String) (_ : Origin) (entries : Entries) : Option Entries :=
  match List.lookup name entries with
  | none => some (entries ++ [(name, .tables [[]])])
  | some (.tables items) => some (Data.put entries name (.tables ([] :: items)))
  | some _ => none

/-- Adds a value under a new name. -/
def assign (name : String) (data : Data) (entries : Entries) : Option Entries :=
  if (List.lookup name entries).isSome then none else some (entries ++ [(name, .value data)])

/-- Sets the value of a key in a table.  The table that the parts of the key before the last one
lead to has to be one that keys have made. -/
def setKey (key : List String) (data : Data) (origin : Origin) (entries : Entries) :
    Option Entries :=
  match key.getLast?, key.dropLast with
  | none, _ => none
  | some name, [] => assign name data entries
  | some name, path =>
    within .key (· != .header)
      (fun origin entries => if origin = .key then assign name data entries else none)
      path origin entries

/-- A document under construction: its top table, and the table that keys go to. -/
structure Document where
  entries : Entries
  path : List String

namespace Document

/-- The document in which nothing is written yet. -/
def empty : Document :=
  ⟨[], []⟩

/-- A change below headers. -/
def change (d : Document) (path : List String) (f : Origin → Entries → Option Entries) :
    Option Entries :=
  within .passing (fun _ => true) f path .header d.entries

/-- The document after the header of a table. -/
def header? (d : Document) (key : List String) : Option Document := do
  let name ← key.getLast?
  let entries ← d.change key.dropLast (openTable name)
  some ⟨entries, key⟩

/-- The document after the header of an item in a list of tables. -/
def item? (d : Document) (key : List String) : Option Document := do
  let name ← key.getLast?
  let entries ← d.change key.dropLast (openItem name)
  some ⟨entries, key⟩

/-- The document after a key with its value. -/
def set? (d : Document) (key : List String) (data : Data) : Option Document := do
  let entries ← d.change d.path (setKey key data)
  some ⟨entries, d.path⟩

/-- The data of a document. -/
def toData (d : Document) : Data :=
  .table (entriesData d.entries)

end Document

/-- The table of keys with their values, as it is written in braces. -/
def inlineTable? (pairs : List (List String × Data)) : Option Data := do
  let entries ← pairs.foldlM (fun entries (key, data) => setKey key data .header entries) []
  some (.table (entriesData entries))

end AccessAudit.Toml
