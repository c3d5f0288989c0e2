import AccessAudit.Markup.Element

/-!
# Landmark regions

A page is expected to have a header, a navigation, a main part and a footer.
-/

namespace AccessAudit.Markup

/-- The landmarks that every page needs, in the order in which they are reported. -/
def requiredLandmarks : List String :=
  ["header", "nav", "main", "footer"]

/-- The required landmarks that are not present. -/
def missingLandmarks (present : List String) : List String :=
  requiredLandmarks.filter fun tag => !present.contains tag

/-- What is said of the landmarks of a page. -/
structure LandmarkReport where
  valid : Bool
  missing : List String
  present : List String
  deriving DecidableEq, Repr

/-- The report on the landmarks that are present. -/
def landmarkReport (present : List String) : LandmarkReport where
  valid := (missingLandmarks present).isEmpty
  missing := missingLandmarks present
  present := present

end AccessAudit.Markup
