import AccessAudit.Text.Blank
import AccessAudit.Text.Digit
import AccessAudit.Text.Quoted
import AccessAudit.Text.Radix

/-!
# Colours

An sRGB colour with three channels of eight bits, its hexadecimal form `#rrggbb`, and the two
spellings by number: hexadecimal digits and the function `rgb(r, g, b)`.
-/

namespace AccessAudit

/-- An sRGB colour with channels from 0 to 255. -/
structure Rgb where
  red : UInt8
  green : UInt8
  blue : UInt8
  deriving DecidableEq, Repr

namespace Rgb

/-- The colour with the given channels, each taken modulo 256. -/
def ofNats (red green blue : Nat) : Rgb :=
  ⟨red.toUInt8, green.toUInt8, blue.toUInt8⟩

/-- The colour whose hexadecimal form is the six digits of `n`. -/
def ofCode (n : Nat) : Rgb :=
  ofNats (n / 65536) (n / 256 % 256) (n % 256)

/-! ### Hexadecimal form -/

/-- The two small hexadecimal digits of a channel. -/
def channelDigits (v : UInt8) : List Char :=
  [Nat.digitChar (v.toNat / 16), Nat.digitChar (v.toNat % 16)]

/-- The form `#rrggbb` in small letters. -/
def toHex (c : Rgb) : String :=
  String.ofList ('#' :: channelDigits c.red ++ channelDigits c.green ++ channelDigits c.blue)

/-- Why a text is not a colour. -/
inductive ReadError where
  | invalidHex (text : String)
  deriving DecidableEq, Repr

/-- The wording of an error. -/
def ReadError.message : ReadError → String
  | .invalidHex text => "invalid hex color: " ++ Text.quoted text

/-- The digits of a colour, without one leading number sign. -/
def hexDigits : List Char → List Char
  | '#' :: digits => digits
  | digits => digits

/-- The colour of three digits, each standing for itself twice, or of six digits. -/
def ofHexValues? : List Nat → Option Rgb
  | [r, g, b] => some (ofNats (17 * r) (17 * g) (17 * b))
  | [r₁, r₂, g₁, g₂, b₁, b₂] =>
    some (ofNats (16 * r₁ + r₂) (16 * g₁ + g₂) (16 * b₁ + b₂))
  | _ => none

/-- Reads `#rgb` or `#rrggbb`; the number sign may be missing. -/
def parseHex (text : String) : Except ReadError Rgb :=
  match ((hexDigits text.toList).mapM Text.hexValue?).bind ofHexValues? with
  | some colour => .ok colour
  | none => .error (.invalidHex text)

/-! ### The colour function -/

/-- A non-empty run of decimal digits of any script, and what follows it. -/
def digitRun? (s : List Char) : Option (List Char × List Char) :=
  let (digits, rest) := s.span Text.isDigit
  if digits.isEmpty then none else some (digits, rest)

/-- A comma, blanks, and a run of digits. -/
def nextRun? : List Char → Option (List Char × List Char)
  | ',' :: rest => digitRun? (rest.dropWhile Text.isBlank)
  | _ => none

/-- The three runs of digits of a call `rgb(…)` at the beginning of a text. -/
def callRuns? : List Char → Option (List Char × List Char × List Char)
  | 'r' :: 'g' :: 'b' :: '(' :: rest => do
    let (red, rest) ← digitRun? rest
    let (green, rest) ← nextRun? rest
    let (blue, rest) ← nextRun? rest
    if rest.head? = some ')' then some (red, green, blue) else none
  | _ => none

/-- The runs of digits of the leftmost call in a text. -/
def firstCall? : List Char → Option (List Char × List Char × List Char)
  | [] => none
  | c :: rest =>
    match callRuns? (c :: rest) with
    | some runs => some runs
    | none => firstCall? rest

/-- A channel value: ASCII digits that denote at most 255, leading zeros allowed. -/
def channel? (run : List Char) : Option UInt8 :=
  if run.all Char.isDigit then
    let value := run.foldl (fun n c => 10 * n + (c.toNat - '0'.toNat)) 0
    if value ≤ 255 then some value.toUInt8 else none
  else none

/-- Reads the leftmost `rgb(r, g, b)` of a text. -/
def parseCall? (text : String) : Option Rgb := do
  let (red, green, blue) ← firstCall? text.toList
  some ⟨← channel? red, ← channel? green, ← channel? blue⟩

end Rgb

end AccessAudit
