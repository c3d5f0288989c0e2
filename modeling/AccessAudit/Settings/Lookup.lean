import AccessAudit.Settings.File

/-!
# Finding the settings of a project

A file named on the command line goes before everything else.  Then come the files of the project,
the file of the user, and the default settings.
-/

namespace AccessAudit.Settings

/-- Where settings come from. -/
inductive Source where
  /-- A file named on the command line, whether it exists or not. -/
  | named (path : String)
  | project (path : String)
  | user (path : String)
  | builtin
  deriving DecidableEq, Repr

/-- The files of a project that hold settings whenever they exist, in the order of their rank. -/
def projectFiles : List String :=
  ["wcag-lint.toml", ".wcag-lint.toml"]

/-- The name of the user's file. -/
def userFile : String :=
  "config.toml"

/-- Whether the file at a path is a manifest with settings. -/
def isManifest (fs : FileSystem) (path : String) : Bool :=
  match fs.read path with
  | .ok text => inManifest text
  | .error _ => false

/-- The file of a project that holds its settings. -/
def projectFile? (fs : FileSystem) (directory : String) : Option String :=
  ((projectFiles.map (Path.join directory)).find? fs.isFile).or
    ([Path.join directory manifestName].find? (isManifest fs))

/-- The file of the user in a directory. -/
def userFile? (fs : FileSystem) (directory : Option String) : Option String :=
  (directory.map fun d => Path.join d userFile).filter fs.isFile

/-- Finds the settings of a project. -/
def lookup (fs : FileSystem) (directory : String) (named userDirectory : Option String) : Source :=
  match named with
  | some path => .named path
  | none =>
    match projectFile? fs directory with
    | some path => .project path
    | none => (userFile? fs userDirectory).elim .builtin .user

/-- The path of a source. -/
def Source.path? : Source → Option String
  | .named path => some path
  | .project path => some path
  | .user path => some path
  | .builtin => none

/-- Loads the settings of a source. -/
def Source.load (fs : FileSystem) (source : Source) : Except LoadError Settings :=
  match source.path? with
  | some path => Settings.load fs.read path
  | none => .ok default

end AccessAudit.Settings
