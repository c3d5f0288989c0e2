import AccessAudit.Decimal.Basic

/-!
# Written doubles

A finite double is exactly `mantissa * 2 ^ exponent`.  It is written with a fixed number of places,
the last one rounded with a half going to the even digit, or with the fewest digits that still read
back as the same double.
-/

namespace AccessAudit.Decimal

/-- The number `mantissa * 2 ^ exponent`. -/
structure Binary where
  mantissa : Nat
  /-- Power of two that scales it. -/
  exponent : Int
  deriving DecidableEq, Repr

namespace Binary

/-- The exact magnitude of a finite double. -/
def ofFloat (x : Float) : Binary :=
  let bits : Nat := x.toBits.toNat
  let field : Nat := bits / Nat.pow 2 52 % Nat.pow 2 11
  let fraction : Nat := bits % Nat.pow 2 52
  if field = 0 then ⟨fraction, -1074⟩ else ⟨Nat.pow 2 52 + fraction, (field : Int) - 1075⟩

/-- Numerator of the magnitude as a fraction of whole numbers. -/
def numerator (x : Binary) : Nat :=
  x.mantissa * Nat.pow 2 x.exponent.toNat

/-- Denominator of the magnitude as a fraction of whole numbers. -/
def denominator (x : Binary) : Nat :=
  Nat.pow 2 (-x.exponent).toNat

end Binary

/-- A quotient rounded to the nearest whole number, a half to the even one. -/
def roundHalfEven (numerator denominator : Nat) : Nat :=
  let quotient := numerator / denominator
  let twice := 2 * (numerator % denominator)
  if twice > denominator || (twice == denominator && quotient % 2 == 1) then quotient + 1
  else quotient

/-- Digits on the left, filled up with zeros to a width. -/
def padded (width : Nat) (digits : List Char) : List Char :=
  List.replicate (width - digits.length) '0' ++ digits

/-- A number of units of `10 ^ -places`, written with a point before the last `places` digits. -/
def withPoint (places units : Nat) : String :=
  let digits := padded (places + 1) (Nat.toDigits 10 units)
  let whole := digits.take (digits.length - places)
  let fraction := digits.drop (digits.length - places)
  if places = 0 then String.ofList whole else String.ofList (whole ++ '.' :: fraction)

/-- A double that is not negative, with exactly `places` digits after the point. -/
def fixed (places : Nat) (x : Float) : String :=
  let b := Binary.ofFloat x
  withPoint places (roundHalfEven (b.numerator * Nat.pow 10 places) b.denominator)

/-- The two neighbours of a magnitude among the multiples of `10 ^ -places`. -/
def neighbours (x : Binary) (places : Nat) : Nat × Nat :=
  let units := x.numerator * Nat.pow 10 places / x.denominator
  (units, units + 1)

/-- The count of units of `10 ^ -places` that reads back as `x`, if one of the two neighbours does;
the nearer one if both do. -/
def readsBack? (x : Float) (places : Nat) : Option Nat :=
  let b := Binary.ofFloat x
  let (low, high) := neighbours b places
  let same (units : Nat) : Bool := (Decimal.mk units (-(places : Int))).toFloat.toBits == x.toBits
  let nearest := roundHalfEven (b.numerator * Nat.pow 10 places) b.denominator
  if same nearest then some nearest
  else if same low then some low
  else if same high then some high
  else none

/-- The decimal with the fewest places that reads back as a double that is not negative. -/
def shortest (x : Float) : Decimal :=
  let found := (List.range 340).findSome? fun places =>
    (readsBack? x places).map fun units => Decimal.mk units (-(places : Int))
  found.getD ⟨roundHalfEven (Binary.ofFloat x).numerator (Binary.ofFloat x).denominator, 0⟩

/-- A decimal number by its digits, with a point before those after it. -/
def positional (d : Decimal) : List Char :=
  (withPoint (-d.exponent).toNat (d.mantissa * Nat.pow 10 d.exponent.toNat)).toList

end AccessAudit.Decimal
