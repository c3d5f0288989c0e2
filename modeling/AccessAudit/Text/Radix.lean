/-!
# Whole numbers in a radix

Digits up to the radix sixteen, in letters of either case.
-/

namespace AccessAudit.Text

/-- The value of a hexadecimal digit of either case. -/
def hexValue? (c : Char) : Option Nat :=
  if '0' ≤ c ∧ c ≤ '9' then some (c.toNat - '0'.toNat)
  else if 'a' ≤ c ∧ c ≤ 'f' then some (c.toNat - 'a'.toNat + 10)
  else if 'A' ≤ c ∧ c ≤ 'F' then some (c.toNat - 'A'.toNat + 10)
  else none

/-- The value of a digit of a radix. -/
def digitValue? (radix : Nat) (c : Char) : Option Nat :=
  (hexValue? c).filter (· < radix)

/-- The number that the values of digits denote. -/
def ofDigitValues (radix : Nat) (values : List Nat) : Nat :=
  values.foldl (fun n v => radix * n + v) 0

/-- The number that one or more digits of a radix denote. -/
def natural? (radix : Nat) (digits : List Char) : Option Nat :=
  if digits.isEmpty then none
  else (digits.mapM (digitValue? radix)).map (ofDigitValues radix)

end AccessAudit.Text
