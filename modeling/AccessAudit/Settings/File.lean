import AccessAudit.FileSystem
import AccessAudit.Settings.Reader

/-!
# Settings files

Settings are loaded from a file: a manifest of a package by its name, or else a TOML file.
-/

namespace AccessAudit.Settings

/-- Why settings cannot be loaded. -/
inductive LoadError where
  | unreadable (path : String) (failure : ReadFailure)
  | badToml
  | badManifest
  deriving DecidableEq, Repr

/-- The wording of an error. -/
def LoadError.message : LoadError → String
  | .unreadable path failure => "Failed to read config file " ++ path ++ ": " ++ failure.message
  | .badToml => "Failed to parse config"
  | .badManifest => "Failed to parse package.json config"

/-- The file name of a manifest. -/
def manifestName : String :=
  "package.json"

/-- The settings of a file with the given name and text. -/
def ofText (path text : String) : Except LoadError Settings :=
  if Path.fileName? path = some manifestName then
    (ofManifest? text).elim (.error .badManifest) .ok
  else
    (ofToml? text).elim (.error .badToml) .ok

/-- Loads the settings of a file. -/
def load (read : String → Except ReadFailure String) (path : String) :
    Except LoadError Settings :=
  match read path with
  | .ok text => ofText path text
  | .error failure => .error (.unreadable path failure)

end AccessAudit.Settings
