import AccessAudit.Color.Basic
import AccessAudit.Text.Affix

/-!
# The palette

The fixed colours of the utility classes: `white`, `black`, and six families with eleven shades
each.  A class list declares a text colour by `text-` and a background by `bg-` before a token of
the palette; of several the last one counts, and a class with a colon applies only in some state
and is passed over.
-/

namespace AccessAudit

/-- A named colour. -/
structure Swatch where
  family : String
  shade : Option Nat
  rgb : Rgb
  deriving DecidableEq, Repr

/-- The name of a colour, such as `gray-500` or `white`. -/
def Swatch.token (s : Swatch) : String :=
  match s.shade with
  | some shade => s.family ++ "-" ++ toString shade
  | none => s.family

namespace Palette

/-- The shades of every family, from light to dark. -/
def shades : List Nat :=
  [50, 100, 200, 300, 400, 500, 600, 700, 800, 900, 950]

/-- The families with the colour codes of their shades. -/
def families : List (String × List Nat) :=
  [("gray", [0xf9fafb, 0xf3f4f6, 0xe5e7eb, 0xd1d5db, 0x9ca3af, 0x6b7280, 0x4b5563, 0x374151,
      0x1f2937, 0x111827, 0x030712]),
   ("blue", [0xeff6ff, 0xdbeafe, 0xbfdbfe, 0x93c5fd, 0x60a5fa, 0x3b82f6, 0x2563eb, 0x1d4ed8,
      0x1e40af, 0x1e3a8a, 0x172554]),
   ("red", [0xfef2f2, 0xfee2e2, 0xfecaca, 0xfca5a5, 0xf87171, 0xef4444, 0xdc2626, 0xb91c1c,
      0x991b1b, 0x7f1d1d, 0x450a0a]),
   ("green", [0xf0fdf4, 0xdcfce7, 0xbbf7d0, 0x86efac, 0x4ade80, 0x22c55e, 0x16a34a, 0x15803d,
      0x166534, 0x14532d, 0x052e16]),
   ("yellow", [0xfefce8, 0xfef9c3, 0xfef08a, 0xfde047, 0xfacc15, 0xeab308, 0xca8a04, 0xa16207,
      0x854d0e, 0x713f12, 0x422006]),
   ("slate", [0xf8fafc, 0xf1f5f9, 0xe2e8f0, 0xcbd5e1, 0x94a3b8, 0x64748b, 0x475569, 0x334155,
      0x1e293b, 0x0f172a, 0x020617])]

/-- The swatches of one family. -/
def familySwatches (family : String × List Nat) : List Swatch :=
  (shades.zip family.2).map fun (shade, code) => ⟨family.1, some shade, Rgb.ofCode code⟩

/-- All swatches: white, black, then family by family. -/
def swatches : List Swatch :=
  ⟨"white", none, Rgb.ofCode 0xffffff⟩ :: ⟨"black", none, Rgb.ofCode 0x000000⟩ ::
    families.flatMap familySwatches

/-- The swatch with a given token. -/
def lookup? (token : String) : Option Swatch :=
  swatches.find? fun s => s.token == token

/-- The token of a class: the class without `text-` or `bg-` at its beginning. -/
def tokenOfClass (name : String) : String :=
  ((Text.after? "text-" name).or (Text.after? "bg-" name)).getD name

/-- The swatch of a utility class or of a bare token. -/
def resolve? (name : String) : Option Swatch :=
  lookup? (tokenOfClass name)

/-- The swatch with exactly the given colour. -/
def nameOf? (colour : Rgb) : Option Swatch :=
  swatches.find? fun s => s.rgb == colour

end Palette

/-- Reads any spelling of a colour, blanks around it apart: hexadecimal digits after a number sign,
a call of `rgb`, a utility class or a palette token. -/
def Rgb.parse? (text : String) : Option Rgb :=
  let text := Text.trimmed text
  if (Text.after? "#" text).isSome then (Rgb.parseHex text).toOption
  else if (Text.after? "rgb(" text).isSome then Rgb.parseCall? text
  else (Palette.resolve? text).map Swatch.rgb

end AccessAudit
