/-!
# Decimal numbers

An unsigned decimal number is a mantissa and a power of ten.  It is read from digits with an
optional point and an optional exponent, and it denotes the nearest double, a half going to the
even neighbour.
-/

namespace AccessAudit

/-- The number `mantissa * 10 ^ exponent`. -/
structure Decimal where
  mantissa : Nat
  /-- Power of ten that scales them. -/
  exponent : Int
  deriving DecidableEq, Repr

namespace Decimal

/-- The number that a list of ASCII digits denotes. -/
def ofDigits (digits : List Char) : Nat :=
  digits.foldl (fun n c => 10 * n + (c.toNat - '0'.toNat)) 0

/-- An exponent after its mark: an optional sign and at least one digit, up to the end. -/
def readExponent? : List Char → Option Int
  | '-' :: digits =>
    if digits.isEmpty || !digits.all Char.isDigit then none else some (-(ofDigits digits : Int))
  | '+' :: digits =>
    if digits.isEmpty || !digits.all Char.isDigit then none else some (ofDigits digits : Int)
  | digits =>
    if digits.isEmpty || !digits.all Char.isDigit then none else some (ofDigits digits : Int)

/-- The part of a number after its digits: nothing, or `e` and an exponent. -/
def readScale? : List Char → Option Int
  | [] => some 0
  | c :: rest => if c = 'e' ∨ c = 'E' then readExponent? rest else none

/-- The digits after the point and what follows them, if the text goes on with a point. -/
def splitFraction : List Char → List Char × List Char
  | '.' :: rest => rest.span Char.isDigit
  | rest => ([], rest)

/-- Reads an unsigned number: digits with at most one point and at least one digit on either side
of it, then an optional exponent.  The whole text has to be used. -/
def read? (text : List Char) : Option Decimal :=
  let (whole, rest) := text.span Char.isDigit
  let (fraction, rest) := splitFraction rest
  if whole.isEmpty && fraction.isEmpty then none
  else (readScale? rest).map fun scale =>
    ⟨ofDigits (whole ++ fraction), scale - fraction.length⟩

/-- The number of decimal digits of a number, one for zero. -/
def digitCount (n : Nat) : Nat :=
  (Nat.toDigits 10 n).length

/-- The nearest double.  Beyond the range of doubles the answer is infinite or zero without a look
at the power of ten. -/
def toFloat (d : Decimal) : Float :=
  let size := (digitCount d.mantissa : Int) + d.exponent
  if d.mantissa = 0 || size < -400 then 0
  else if size > 400 then 1 / 0
  else Float.ofScientific d.mantissa (d.exponent < 0) d.exponent.natAbs

/-- Reads a number with an optional sign as a double. -/
def readFloat? : List Char → Option Float
  | '-' :: rest => (read? rest).map fun d => -d.toFloat
  | '+' :: rest => (read? rest).map toFloat
  | rest => (read? rest).map toFloat

end Decimal

end AccessAudit
