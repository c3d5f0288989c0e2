import AccessAudit.Contrast.Judgement
import AccessAudit.Json.Basic

/-!
# Comparisons of two colours

Two colours in any spelling, the judgement of their contrast, and suggestions if it is too low.
-/

namespace AccessAudit

/-- A pair of colours as spelled, with its judgement. -/
structure Comparison where
  foreground : String
  background : String
  check : Check
  suggestions : List String

namespace Comparison

/-- Judges a pair of colours. -/
def of (foreground background fontSize fontWeight : String) (level : Level) : Comparison :=
  let outcome := AccessAudit.check (Rgb.parse? foreground) (Rgb.parse? background) fontSize
    fontWeight level
  { foreground := foreground
    background := background
    check := outcome
    suggestions :=
      if Check.valid? outcome = some false then suggestColours foreground background else [] }

/-- The line on the size class and its minimum. -/
def sizeLine (m : Measurement Float) : String :=
  "  " ++ m.size.name ++ " text, threshold " ++ m.minimumText ++ ":1\n"

/-- The judgement for a person. -/
def format (c : Comparison) : String :=
  c.foreground ++ " on " ++ c.background ++ "\n  " ++ Check.message c.check ++ "\n"
    ++ (c.check.map sizeLine).getD ""
    ++ String.join (c.suggestions.map fun s => "  = help: " ++ s ++ "\n")

/-- A judgement as JSON. -/
def checkJson : Check → Json
  | none => .object [("status", .string "insufficient")]
  | some m => .object
    [("status", .string "measured"), ("ratio", .ofFloat m.ratio), ("valid", .bool m.valid),
     ("threshold", .ofFloat (minimum Float m.level m.size)), ("level", .string m.level.name),
     ("size_class", .string m.size.name), ("message", .string m.message)]

/-- The comparison as JSON. -/
def toJson (c : Comparison) : Json :=
  .object
    [("foreground", .string c.foreground), ("background", .string c.background),
     ("check", checkJson c.check), ("suggestions", .array (c.suggestions.map .string))]

end Comparison

end AccessAudit
