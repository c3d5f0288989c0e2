import AccessAudit.Decimal.Basic
import AccessAudit.Text.Radix
import Mathlib.Data.List.Basic
import Mathlib.Data.List.TakeDrop
import Mathlib.Data.Nat.Digits.Defs

/-!
# Written numbers

The digits with which numbers are written, and the numbers that digits denote: decimal digits of
numbers and integers, and digits of a radix with their values.
-/

namespace AccessAudit

namespace Text

/-- A span ends where the class ends. -/
theorem span_append_of_head? {p : Char → Bool} {w rest : List Char} (hw : ∀ c ∈ w, p c = true)
    (hrest : ∀ c ∈ rest.head?, p c = false) :
  (w ++ rest).span p = (w, rest)
  := by
  rw [List.span_eq_takeWhile_dropWhile, List.takeWhile_append_of_pos hw,
    List.dropWhile_append_of_pos hw]
  cases rest with
  | nil => simp
  | cons c rest =>
    have hc : ¬p c = true := by simp [hrest c rfl]
    rw [List.takeWhile_cons_of_neg hc, List.dropWhile_cons_of_neg hc, List.append_nil]

/-! ### Decimal digits -/

theorem isDigit_of_mem_toDigits {n : Nat} {c : Char} (hc : c ∈ Nat.toDigits 10 n) :
  c.isDigit = true
  := Nat.isDigit_of_mem_toDigits (by decide) (by decide) hc

/-- The digits of a number that is not zero do not begin with a zero. -/
theorem head?_toDigits_ne {n : Nat} (h : 0 < n) :
  (Nat.toDigits 10 n).head? ≠ some '0'
  := by
  induction n using Nat.strongRecOn with
  | ind n ih =>
    rw [Nat.toDigits_eq_if (by decide)]
    split
    · have hdigit : ∀ n < 10, 0 < n → Nat.digitChar n ≠ '0' := by decide
      simpa using hdigit n ‹_› h
    · rw [List.head?_append_of_ne_nil _ Nat.toDigits_ne_nil]
      apply ih (n / 10) (by omega) (by omega)

/-- An integer is written with the digits of its magnitude, after a minus sign if it is negative. -/
theorem toList_toString (i : Int) :
  (toString i).toList
    = if 0 ≤ i then Nat.toDigits 10 i.toNat else '-' :: Nat.toDigits 10 (-i).toNat
  := by
  rw [Int.toString_eq_repr, Int.repr_eq_if]
  split
  · rw [Nat.toList_repr]
  · rw [String.toList_append, Nat.toList_repr]
    rfl

theorem toList_toString_ne_nil (i : Int) :
  (toString i).toList ≠ []
  := by
  rw [toList_toString]
  split
  · apply Nat.toDigits_ne_nil
  · apply List.cons_ne_nil

/-! ### Digits of a radix -/

theorem ofDigitValues_eq_ofDigits (radix : Nat) (values : List Nat) :
  ofDigitValues radix values = Nat.ofDigits radix values.reverse
  := by
  rw [ofDigitValues, Nat.ofDigits_eq_foldr, List.foldr_reverse]
  simp only [Nat.add_comm, Nat.cast_id]

theorem digitValue?_digitChar {radix v : Nat} (hradix : radix ≤ 16) (hv : v < radix) :
  digitValue? radix (Nat.digitChar v) = some v
  := by
  have table : ∀ v < 16, hexValue? (Nat.digitChar v) = some v := by
    decide
  rw [digitValue?, table v (by omega), Option.filter_some, if_pos (by simpa using hv)]

/-- Digits that are written for values are read as the number of those values. -/
theorem natural?_map_digitChar {radix : Nat} (hradix : radix ≤ 16) {values : List Nat}
    (hne : values ≠ []) (hvalues : ∀ v ∈ values, v < radix) :
  natural? radix (values.map Nat.digitChar) = some (Nat.ofDigits radix values.reverse)
  := by
  have hread : (values.map Nat.digitChar).mapM (digitValue? radix) = some values := by
    clear hne
    induction values with
    | nil => rfl
    | cons v values ih =>
      rw [List.forall_mem_cons] at hvalues
      simp [digitValue?_digitChar hradix hvalues.1, ih hvalues.2]
  rw [natural?, if_neg (by simpa using hne), hread, Option.map_some, ofDigitValues_eq_ofDigits]

end Text

@[simp]
theorem Decimal.ofDigits_toDigits (n : Nat) :
  ofDigits (Nat.toDigits 10 n) = n
  := Nat.ofDigitChars_toDigits (by decide) (by decide)

end AccessAudit
