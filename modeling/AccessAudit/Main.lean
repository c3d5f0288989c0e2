import AccessAudit.Command.Run
import AccessAudit.Markup.Grammar.Parser

/-!
# The program

What stands between a command and the machine: the files that a command looks at are read before it
runs, and what it prints and writes is passed on after it.
-/

namespace AccessAudit.Command

/-- Files and directories with a name in a directory. -/
abbrev Place := IO.FS.DirEntry

/-- The place at a path. -/
def Place.of (path : String) : Place :=
  { root := ".", fileName := path }

/-- The file at a place. -/
def Place.readFile (place : Place) : IO FileEntry := do
  try
    return .file (String.fromUTF8? (← IO.FS.readBinFile place.fileName))
  catch _ =>
    return .file none

/-- The file or directory at a path without what is below it, if there is one. -/
def readShallow (path : String) : IO (Option FileEntry) := do
  let place := Place.of path
  if ← place.path.isDir then
    return some (.directory [])
  else if ← place.path.pathExists then
    return some (← place.readFile)
  else
    return none

/-- The file or directory at a path with all that is below it.  Links are passed over. -/
partial def readDeep (path : String) : IO FileEntry := do
  let place := Place.of path
  if ← place.path.isDir then
    let mut entries := #[]
    for inner in ← place.path.readDir do
      match (← inner.path.symlinkMetadata).type with
      | .dir | .file =>
        entries := entries.push (inner.fileName, ← readDeep (Path.join path inner.fileName))
      | _ => pure ()
    return .directory entries.toList
  else
    place.readFile

/-- Adds what stands at a path. -/
def addShallow (fs : FileSystem) (path : String) : IO FileSystem := do
  match ← readShallow path with
  | some entry => return if fs.contains path then fs else fs.insert path entry
  | none => return fs

/-- Adds all that stands at and below a path. -/
def addDeep (fs : FileSystem) (path : String) : IO FileSystem := do
  match ← readShallow path with
  | some _ => return fs.insert path (← readDeep path)
  | none => return fs

/-- The directories on the way along some names, from the top. -/
def directoriesAlong (names : List String) : List String :=
  (List.range (names.length + 1)).map fun n => (names.take n).foldl Path.join "/"

/-- Adds the files that a command may look at. -/
def addFiles (e : Environment) (named : Option String) : Action → IO FileSystem
  | .listRules | .contrast _ => return e.files
  | .init _ => addShallow e.files settingsFile
  | .scan request => do
    let candidates :=
      (Settings.projectFiles ++ [Settings.manifestName]).map (Path.join request.root)
        ++ (e.userDirectory.map fun d => Path.join d Settings.userFile).toList
    let mut files := e.files
    for path in named.toList ++ candidates ++ request.files do
      files ← addShallow files path
    if request.all then
      let source := Settings.lookup files request.root named e.userDirectory
      match source.load files with
      | .error _ => return files
      | .ok settings =>
        let directory := request.directory settings
        files ← addDeep files directory
        for above in directoriesAlong (files.locate directory) do
          for name in [".ignore", ".gitignore"] do
            files ← addShallow files (Path.join above name)
    return files

/-- Passes on what a run printed and wrote. -/
def Outcome.report (before : FileSystem) (o : Outcome) : IO Unit := do
  IO.print o.output
  match o.error with
  | some error => IO.eprintln ("Error: " ++ error.message)
  | none => if o.status = 2 then IO.eprint usageText
  match o.files.read settingsFile, before.read settingsFile with
  | .ok text, .ok same => if text != same then IO.FS.writeFile settingsFile text
  | .ok text, .error _ => IO.FS.writeFile settingsFile text
  | .error _, _ => pure ()

/-- Runs a command line on the machine. -/
def execute (arguments : List String) : IO UInt32 := do
  let working := Path.components (← IO.currentDir).toString
  let bare : Environment :=
    { files := ⟨.directory [], FileSystem.follow [] working⟩
      home := ← IO.getEnv "HOME"
      settingsDirectory := ← IO.getEnv "WCAG_LINT_CONFIG_DIR" }
  let files ←
    match Request.read? arguments with
    | some (.run named action) => addFiles bare named action
    | _ => pure bare.files
  let outcome := run Markup.Grammar.parser { bare with files } arguments
  outcome.report files
  return outcome.status.toUInt32

end AccessAudit.Command

/-- The program. -/
def main (arguments : List String) : IO UInt32 :=
  AccessAudit.Command.execute arguments
