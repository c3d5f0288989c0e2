import AccessAudit.Settings.Basic
import AccessAudit.Toml.Reader

/-!
# Reading settings

Settings are a table of fields in a TOML file, or the section of that kind in the JSON manifest of a
package.  A missing field has its default, and fields that are not known are passed over.
-/

namespace AccessAudit

/-- The two formats of settings. -/
inductive Format where
  | toml
  | json
  deriving DecidableEq, Repr

namespace Format

/-- Whether a value says no more than that it is there. -/
def isEmptyValue : Format → Data → Bool
  | .json, .null => true
  | .toml, .list [] => true
  | .toml, .table [] => true
  | _, _ => false

/-- The values of the named fields of a record.  A list gives them in their order, and in JSON it
must not be longer than the fields.  A date has none of the fields. -/
def fields? (format : Format) (names : List String) : Data → Option (List (Option Data))
  | .table entries => some (names.map fun name => List.lookup name entries)
  | .list items =>
    if format = .json ∧ names.length < items.length then none
    else some (names.zipIdx.map fun (_, i) => items[i]?)
  | .date => some (names.map fun _ => none)
  | _ => none

/-- A name, or a table whose one entry has that name and an empty value. -/
def choice? (format : Format) : Data → Option String
  | .string name => some name
  | .table [(name, value)] => if format.isEmptyValue value then some name else none
  | _ => none

end Format

/-- The value of a field that may be missing. -/
def fieldOr {α : Type} (default : α) (read : Data → Option α) : Option Data → Option α
  | none => some default
  | some data => read data

/-- The scope that a table of its fields stands for. -/
def Scope.ofData? (f : Format) (data : Data) : Option Scope := do
  match ← f.fields? ["root", "exclude", "respect_gitignore"] data with
  | [root, exclude, respect] =>
    let root ← fieldOr Scope.default.root Data.string? root
    let exclude ← fieldOr Scope.default.exclude Data.strings? exclude
    let respect ← fieldOr Scope.default.respectGitignore Data.bool? respect
    some ⟨root, exclude, respect⟩
  | _ => none

namespace Settings

/-- The settings that a table of their fields stands for. -/
def ofData? (f : Format) (data : Data) : Option Settings := do
  match ← f.fields? ["enabled", "severity", "rules", "analyzer"] data with
  | [enabled, severity, rules, analyzer] =>
    let enabled ← fieldOr default.enabled Data.bool? enabled
    let failLevel ← fieldOr default.failLevel
      (fun value => (f.choice? value).bind FailLevel.ofName?) severity
    let rules ← fieldOr default.rules Data.strings? rules
    let scope ← fieldOr default.scope (Scope.ofData? f) analyzer
    some ⟨enabled, failLevel, rules, scope⟩
  | _ => none

/-- Reads a TOML file. -/
def ofToml? (text : String) : Option Settings :=
  (Toml.read? text).bind (ofData? .toml)

/-- The name of the section of a manifest. -/
def sectionName : String :=
  "accessibility"

/-- How deep a manifest may be nested. -/
def manifestDepth : Nat :=
  127

/-- Reads the text of a manifest. -/
def readManifest? (text : String) : Option Json :=
  (Json.read? text).filter (Json.fits manifestDepth)

/-- The settings of a manifest; one without the section has the default settings. -/
def ofManifest? (text : String) : Option Settings := do
  let manifest ← readManifest? text
  match manifest.member? sectionName with
  | some value => ofData? .json (.ofJson value)
  | none => some default

/-- Whether a text is a manifest that has the section. -/
def inManifest (text : String) : Bool :=
  (readManifest? text).any fun manifest => (manifest.member? sectionName).isSome

end Settings

end AccessAudit
