import AccessAudit.Discovery.Exclusion
import AccessAudit.Discovery.Ignore
import AccessAudit.FileSystem

/-!
# Walking a project

All files below a directory that are neither ignored nor excluded.  Every directory, also those
above, may hold ignore files; an inner one goes before an outer one, and `.ignore` files go before
`.gitignore` files.
-/

namespace AccessAudit.Discovery

/-- The patterns of the ignore files of one directory. -/
structure IgnoreFiles where
  plain : List IgnorePattern
  git : List IgnorePattern

/-- The patterns of the file of a name. -/
def patternsOf (name : String) (entries : List (String × FileEntry)) : List IgnorePattern :=
  (((List.lookup name entries).bind FileEntry.text?).map IgnorePattern.readAll).getD []

/-- The ignore files among the entries of a directory. -/
def IgnoreFiles.of (respectGitignore : Bool) (entries : List (String × FileEntry)) :
    IgnoreFiles where
  plain := patternsOf ".ignore" entries
  git := if respectGitignore then patternsOf ".gitignore" entries else []

/-- The path of names with slashes between them. -/
def slashed (names : List String) : List Char :=
  List.intercalate ['/'] (names.map String.toList)

/-- Whether an entry is ignored.  The levels are the ignore files of the directories above it, and
the trail its name and theirs, both from the inside out. -/
def isIgnored (levels : List IgnoreFiles) (trail : List String) (isDirectory : Bool) : Bool :=
  let verdict? (patterns : IgnoreFiles → List IgnorePattern) : Option Bool :=
    levels.zipIdx.findSome? fun (level, depth) =>
      IgnorePattern.verdict? (patterns level) (slashed (trail.take (depth + 1)).reverse) isDirectory
  ((verdict? IgnoreFiles.plain).or (verdict? IgnoreFiles.git)) == some false

mutual

/-- The trails of all files that are not ignored, in or at an entry. -/
def filesAt (respectGitignore : Bool) (levels : List IgnoreFiles) (trail : List String) :
    FileEntry → List (List String)
  | .file _ => [trail]
  | .directory entries =>
    filesIn respectGitignore (IgnoreFiles.of respectGitignore entries :: levels) trail entries

/-- The trails of all files that are not ignored, in or at some entries of a directory. -/
def filesIn (respectGitignore : Bool) (levels : List IgnoreFiles) (trail : List String) :
    List (String × FileEntry) → List (List String)
  | [] => []
  | (name, entry) :: entries =>
    (if isIgnored levels (name :: trail) entry.isDirectory then []
      else filesAt respectGitignore levels (name :: trail) entry)
      ++ filesIn respectGitignore levels trail entries

end

/-- The ignore files of the directories on the way along some names, from the inside out, after
those found so far. -/
def levelsAlong (respectGitignore : Bool) :
    List IgnoreFiles → FileEntry → List String → List IgnoreFiles
  | levels, _, [] => levels
  | levels, entry, name :: names =>
    levelsAlong respectGitignore (IgnoreFiles.of respectGitignore entry.entries :: levels)
      ((List.lookup name entry.entries).getD (.directory [])) names

/-- The paths of all files below a path that are not ignored. -/
def walk (fs : FileSystem) (respectGitignore : Bool) (path : String) :
    Except ReadFailure (List String) :=
  match fs.find path with
  | .error failure => .error failure
  | .ok entry =>
    let names := fs.locate path
    let levels := levelsAlong respectGitignore [] fs.top names
    let trails := filesAt respectGitignore levels names.reverse entry
    .ok (trails.map fun trail => (trail.reverse.drop names.length).foldl Path.join path)

/-- Why the files of a project cannot be listed. -/
inductive WalkError where
  | badPattern (text : String)
  | unwalkable (path : String) (failure : ReadFailure)
  deriving DecidableEq, Repr

/-- The wording of an error. -/
def WalkError.message : WalkError → String
  | .badPattern text => "Invalid exclude pattern: " ++ text
  | .unwalkable path failure =>
    path ++ ": IO error for operation on " ++ path ++ ": " ++ failure.message

/-- Reads all patterns, or names the first that is none. -/
def readPatterns : List String → Except WalkError (List Exclusion)
  | [] => .ok []
  | text :: texts =>
    match Exclusion.read? text with
    | none => .error (.badPattern text)
    | some e => (readPatterns texts).map (e :: ·)

/-- The sorted paths of the files below a directory that are handled, not ignored and not excluded.
Patterns are about paths as seen from a root. -/
def discover (fs : FileSystem) (handles : String → Bool) (respectGitignore : Bool)
    (exclude : List String) (root directory : String) : Except WalkError (List String) :=
  match readPatterns exclude with
  | .error e => .error e
  | .ok patterns =>
    match walk fs respectGitignore directory with
    | .error failure => .error (.unwalkable directory failure)
    | .ok paths =>
      .ok ((paths.filter fun path =>
        handles path && !isExcluded patterns (Path.relativeTo root path)).mergeSort
          fun a b => Path.compare a b != .gt)

end AccessAudit.Discovery
