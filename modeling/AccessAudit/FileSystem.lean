import AccessAudit.Path

/-!
# Files

A tree of directories and files, seen from a working directory.  A file either holds text or bytes
that are no text.
-/

namespace AccessAudit

/-- An entry of a directory. -/
inductive FileEntry where
  | file (text : Option String)
  | directory (entries : List (String × FileEntry))

/-- Why a file cannot be read.  Every file may be read: there are no permissions, and so no failure
for want of them. -/
inductive ReadFailure where
  | missing
  /-- The path leads through a file. -/
  | notDirectory
  | directory
  | notText
  deriving DecidableEq, Repr

/-- The wording of a failure. -/
def ReadFailure.message : ReadFailure → String
  | .missing => "No such file or directory (os error 2)"
  | .notDirectory => "Not a directory (os error 20)"
  | .directory => "Is a directory (os error 21)"
  | .notText => "stream did not contain valid UTF-8"

namespace FileEntry

/-- Whether an entry is a directory. -/
def isDirectory : FileEntry → Bool
  | .directory _ => true
  | .file _ => false

/-- The entries of a directory; a file has none. -/
def entries : FileEntry → List (String × FileEntry)
  | .directory entries => entries
  | .file _ => []

/-- The text of a file. -/
def text? : FileEntry → Option String
  | .file text => text
  | .directory _ => none

/-- The entry at the end of a path of names. -/
def find : List String → FileEntry → Except ReadFailure FileEntry
  | [], entry => .ok entry
  | _ :: _, .file _ => .error .notDirectory
  | name :: path, .directory entries =>
    match List.lookup name entries with
    | some entry => find path entry
    | none => .error .missing

/-- A directory in which the entry at the end of a path is another one.  Directories on the way are
made; a file on the way is replaced. -/
def insert (entry : FileEntry) : List String → FileEntry → FileEntry
  | [], _ => entry
  | name :: path, parent =>
    let inner := (List.lookup name parent.entries).getD (.directory [])
    .directory (parent.entries.filter (fun e => e.1 != name) ++ [(name, insert entry path inner)])

end FileEntry

/-- All files, and the directory from which relative paths are seen. -/
structure FileSystem where
  top : FileEntry
  working : List String

namespace FileSystem

/-- The names that lead to a path from the top, after those in front of it.  There are no links, so
`..` takes back the name before it, whether or not there is a directory of that name. -/
def follow : List String → List Path.Component → List String
  | names, [] => names
  | _, .top :: rest => follow [] rest
  | names, .here :: rest => follow names rest
  | names, .parent :: rest => follow names.dropLast rest
  | names, .name text :: rest => follow (names ++ [text]) rest

/-- The names that lead to a path from the top. -/
def locate (fs : FileSystem) (path : String) : List String :=
  follow fs.working (Path.components path)

/-- The entry at a path. -/
def find (fs : FileSystem) (path : String) : Except ReadFailure FileEntry :=
  if path.isEmpty then .error .missing
  else
    match fs.top.find (fs.locate path) with
    | .ok (.file text) =>
      if path.toList.getLast? = some '/' then .error .notDirectory else .ok (.file text)
    | outcome => outcome

/-- The text of the file at a path. -/
def read (fs : FileSystem) (path : String) : Except ReadFailure String :=
  match fs.find path with
  | .ok (.file (some text)) => .ok text
  | .ok (.file none) => .error .notText
  | .ok (.directory _) => .error .directory
  | .error failure => .error failure

/-- Whether there is something at a path. -/
def contains (fs : FileSystem) (path : String) : Bool :=
  (fs.find path).isOk

/-- Whether there is a file at a path. -/
def isFile (fs : FileSystem) (path : String) : Bool :=
  match fs.find path with
  | .ok entry => !entry.isDirectory
  | .error _ => false

/-- The files with another entry at a path. -/
def insert (fs : FileSystem) (path : String) (entry : FileEntry) : FileSystem :=
  { fs with top := FileEntry.insert entry (fs.locate path) fs.top }

end FileSystem

end AccessAudit
