import AccessAudit.Color.Basic

/-!
# Contrast ratio

Relative luminance weighs the three linear channels of a colour; the contrast of two colours is the
quotient of their luminances, the lighter one above, each raised by 0.05.  Both are stated for any
numbers with the operations they need and for any map from channels to linear light, and are used
with doubles and the sRGB curve.
-/

namespace AccessAudit

section

variable {K : Type} [Add K] [Mul K] [Div K] [OfScientific K] [LT K] [DecidableLT K]

/-- Relative luminance under a channel map. -/
def luminanceBy (linear : UInt8 → K) (c : Rgb) : K :=
  0.2126 * linear c.red + 0.7152 * linear c.green + 0.0722 * linear c.blue

/-- The quotient of a lighter and a darker luminance. -/
def luminanceQuotient (lighter darker : K) : K :=
  (lighter + 0.05) / (darker + 0.05)

/-- The contrast of two colours under a channel map; their order does not matter. -/
def contrastBy (linear : UInt8 → K) (a b : Rgb) : K :=
  if luminanceBy linear b < luminanceBy linear a then
    luminanceQuotient (luminanceBy linear a) (luminanceBy linear b)
  else
    luminanceQuotient (luminanceBy linear b) (luminanceBy linear a)

end

/-- The sRGB curve: a straight piece near black and a power above it. -/
def linearLight (v : UInt8) : Float :=
  let c := v.toNat.toFloat / 255
  if c ≤ 0.03928 then c / 12.92 else Float.pow ((c + 0.055) / 1.055) 2.4

/-- Relative luminance of a colour, from 0 to 1. -/
def Rgb.luminance (c : Rgb) : Float :=
  luminanceBy linearLight c

/-- Contrast ratio of two colours, from 1 to 21. -/
def Rgb.contrast (a b : Rgb) : Float :=
  contrastBy linearLight a b

end AccessAudit
