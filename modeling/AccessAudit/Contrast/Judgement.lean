import AccessAudit.Color.ClassList
import AccessAudit.Contrast.Ratio
import AccessAudit.Decimal.Written
import AccessAudit.Text.Fold

/-!
# Judging text contrast

The minimum ratio depends on the conformance level and on the size of the text: 4.5 for normal and
3 for large text at level AA, 7 and 4.5 at level AAA.  Text is large from 24 pixels on, or from
18.66 pixels on when its weight is at least 700.  A pair of which a colour is not known is not
judged.
-/

namespace AccessAudit

/-- Conformance level. -/
inductive Level where
  | aa
  | aaa
  deriving DecidableEq, Repr

/-- The name of a level. -/
def Level.name : Level → String
  | .aa => "AA"
  | .aaa => "AAA"

/-- Why a text is not a level. -/
inductive Level.ReadError where
  /-- The text in capitals is no level's name. -/
  | unknown (capitals : String)
  deriving DecidableEq, Repr

/-- The wording of an error. -/
def Level.ReadError.message : Level.ReadError → String
  | .unknown capitals => "unknown WCAG level: " ++ capitals

/-- Reads a level's name in any case of letters. -/
def Level.parse (text : String) : Except Level.ReadError Level :=
  let capitals := Text.upper text
  if capitals = "AA" then .ok .aa
  else if capitals = "AAA" then .ok .aaa
  else .error (.unknown capitals)

/-- Size class of a text. -/
inductive SizeClass where
  | normal
  | large
  deriving DecidableEq, Repr

/-- The name of a size class. -/
def SizeClass.name : SizeClass → String
  | .normal => "normal"
  | .large => "large"

/-! ### Minimum ratios -/

/-- Ten times the minimum ratio. -/
def minimumTenths : Level → SizeClass → Nat
  | .aaa, .normal => 70
  | .aaa, .large => 45
  | .aa, .normal => 45
  | .aa, .large => 30

/-- The minimum ratio for a level and a size class. -/
def minimum (K : Type) [OfScientific K] (level : Level) (size : SizeClass) : K :=
  OfScientific.ofScientific (minimumTenths level size) true 1

/-- A minimum as it is written: without a decimal place that is zero. -/
def minimumText (level : Level) (size : SizeClass) : String :=
  let tenths := minimumTenths level size
  if tenths % 10 = 0 then toString (tenths / 10) else Decimal.withPoint 1 tenths

/-- Whether a ratio reaches the minimum. -/
def meets {K : Type} [OfScientific K] [LE K] [DecidableLE K]
    (ratio : K) (level : Level) (size : SizeClass) : Bool :=
  decide (minimum K level size ≤ ratio)

/-! ### Large text -/

/-- The weight that a style names: `bold` is 700, a number is read as far as its digits go, and
whatever is no positive number of 32 bits counts as 400. -/
def readWeight (text : String) : Nat :=
  let text := Text.trim text.toList
  if text.map Char.toLower = "bold".toList then 700
  else
    let digits := text.takeWhile Char.isDigit
    let value := Decimal.ofDigits digits
    if 0 < value ∧ value < Nat.pow 2 32 then value else 400

/-- Characters that may follow in a size. -/
def isSizeChar (c : Char) : Bool :=
  c.isDigit || c == '.'

/-- The number at the beginning of a size. -/
def readSize? (text : String) : Option Float :=
  match Text.trim text.toList with
  | [] => none
  | c :: rest =>
    if c = '-' ∨ c = '+' ∨ isSizeChar c then Decimal.readFloat? (c :: rest.takeWhile isSizeChar)
    else none

/-- Whether a text of the given size and weight is large.  A size that cannot be read is not. -/
def isLarge (fontSize fontWeight : String) : Bool :=
  match readSize? fontSize with
  | none => false
  | some size =>
    decide (24 ≤ size) || (decide (18.66 ≤ size) && decide (700 ≤ readWeight fontWeight))

/-- The size class of a text. -/
def sizeClass (fontSize fontWeight : String) : SizeClass :=
  if isLarge fontSize fontWeight then .large else .normal

/-! ### Checks -/

/-- A measured ratio with the level and the size class it is judged by. -/
structure Measurement (K : Type) where
  ratio : K
  level : Level
  size : SizeClass
  deriving Repr

/-- Whether a measurement reaches its minimum. -/
def Measurement.valid {K : Type} [OfScientific K] [LE K] [DecidableLE K]
    (m : Measurement K) : Bool :=
  meets m.ratio m.level m.size

/-- The minimum of a measurement as it is written. -/
def Measurement.minimumText {K : Type} (m : Measurement K) : String :=
  AccessAudit.minimumText m.level m.size

/-- The outcome of a measurement in words. -/
def Measurement.message (m : Measurement Float) : String :=
  let ratio := Decimal.fixed 2 m.ratio
  if m.valid then "Passes WCAG " ++ m.level.name ++ " (" ++ ratio ++ ":1)"
  else "Fails WCAG " ++ m.level.name ++ " (" ++ ratio ++ ":1, needs " ++ m.minimumText ++ ":1)"

/-- A measurement under a channel map, if both colours are known. -/
def checkBy {K : Type} [Add K] [Mul K] [Div K] [OfScientific K] [LT K] [DecidableLT K]
    (linear : UInt8 → K) (foreground background : Option Rgb) (fontSize fontWeight : String)
    (level : Level) : Option (Measurement K) :=
  match foreground, background with
  | some fg, some bg => some ⟨contrastBy linear fg bg, level, sizeClass fontSize fontWeight⟩
  | _, _ => none

/-- The outcome of a contrast check; absent if a colour is not known. -/
abbrev Check := Option (Measurement Float)

/-- Judges text contrast at a level. -/
def check (foreground background : Option Rgb) (fontSize fontWeight : String) (level : Level) :
    Check :=
  checkBy linearLight foreground background fontSize fontWeight level

/-- The outcome of a check in words. -/
def Check.message : Check → String
  | none => "Unable to determine colors"
  | some m => m.message

/-- Whether a check passed, if it could be made. -/
def Check.valid? (c : Check) : Option Bool :=
  c.map Measurement.valid

/-! ### Suggestions -/

/-- Families whose shades are suggested as replacements. -/
def grayFamilies : List String :=
  ["gray", "slate"]

/-- Family and shade of a gray swatch. -/
def grayShade? (s : Swatch) : Option (String × Nat) :=
  if grayFamilies.contains s.family then s.shade.map fun shade => (s.family, shade) else none

/-- A darker text colour for a gray foreground lighter than shade 600. -/
def darkerText (s : Swatch) : List String :=
  match grayShade? s with
  | some (family, shade) =>
    if shade < 600 then
      ["Try text-" ++ family ++ "-700 or text-" ++ family ++ "-800 for better contrast"]
    else []
  | none => []

/-- A lighter background for a gray background darker than shade 400. -/
def lighterBackground (s : Swatch) : List String :=
  match grayShade? s with
  | some (family, shade) =>
    if 400 < shade then ["Try bg-" ++ family ++ "-100 or bg-white for better contrast"] else []
  | none => []

/-- Replacements for a pair of palette colours. -/
def suggestSwatches (foreground background : Option Swatch) : List String :=
  (foreground.map darkerText).getD [] ++ (background.map lighterBackground).getD []

/-- The swatch that a colour spelling names: a class or token, else the swatch of the same
colour. -/
def swatchOf? (text : String) : Option Swatch :=
  (Palette.resolve? text).or ((Rgb.parse? text).bind Palette.nameOf?)

/-- Replacements for a pair of colours in any spelling. -/
def suggestColours (foreground background : String) : List String :=
  suggestSwatches (swatchOf? foreground) (swatchOf? background)

end AccessAudit
