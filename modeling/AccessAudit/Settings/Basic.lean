/-!
# Settings

What a project says about its scans: whether to scan at all, whether violations fail the run, which
rules to run, and which files to look at.
-/

namespace AccessAudit

/-- What violations do to a run. -/
inductive FailLevel where
  | warning
  | error
  deriving DecidableEq, Repr

namespace FailLevel

/-- The name in settings files. -/
def name : FailLevel → String
  | .warning => "warning"
  | .error => "error"

/-- The level of a name. -/
def ofName? (text : String) : Option FailLevel :=
  [warning, error].find? fun level => level.name == text

end FailLevel

/-- Which files a scan looks at. -/
structure Scope where
  /-- Directory to walk, below the root of the project. -/
  root : String
  exclude : List String
  respectGitignore : Bool
  deriving DecidableEq, Repr

/-- The scope of a project that says nothing about it. -/
def Scope.default : Scope where
  root := "."
  exclude := ["**/node_modules/**", "**/dist/**", "**/build/**"]
  respectGitignore := true

/-- The settings of a project. -/
structure Settings where
  enabled : Bool
  failLevel : FailLevel
  /-- Ids of the rules to run; none stands for all. -/
  rules : List String
  scope : Scope
  deriving DecidableEq, Repr

namespace Settings

/-- The settings of a project that has none. -/
def default : Settings where
  enabled := true
  failLevel := .warning
  rules := []
  scope := .default

/-- Whether a rule is to run. -/
def enables (s : Settings) (rule : String) : Bool :=
  s.rules.isEmpty || s.rules.contains rule

/-- The configured ids that are not among the known ones. -/
def unknownRules (s : Settings) (known : List String) : List String :=
  s.rules.filter fun rule => !known.contains rule

/-- Whether violations fail the run. -/
def failsOnViolations (s : Settings) : Bool :=
  s.failLevel == .error

end Settings

end AccessAudit
