/-!
# ASCII letters and digits

Statements about all ASCII letters and digits are decided by going through the list of them.
-/

namespace AccessAudit.Text

/-- The ASCII letters and digits. -/
def alphanums : List Char :=
  "0123456789ABCDEFGHIJKLMNOPQRSTUVWXYZabcdefghijklmnopqrstuvwxyz".toList

/-- The list of ASCII letters and digits is complete. -/
theorem mem_alphanums {c : Char} (h : c.isAlphanum = true) :
  c ∈ alphanums
  := by
  have hall : ∀ n < 128, (Char.ofNat n).isAlphanum = true → Char.ofNat n ∈ alphanums := by
    decide +kernel
  have hle : c.val ≤ 'z'.val := by
    rcases (Bool.or_eq_true _ _).mp h with hletter | hdigit
    · rcases (Bool.or_eq_true _ _).mp hletter with hupper | hlower
      · apply UInt32.le_trans (of_decide_eq_true hupper).2 (by decide)
      · apply of_decide_eq_true ((Bool.and_eq_true _ _).mp hlower).2
    · apply UInt32.le_trans (of_decide_eq_true ((Bool.and_eq_true _ _).mp hdigit).2) (by decide)
  have hlt : c.toNat < 128 := Nat.lt_of_le_of_lt (UInt32.le_iff_toNat_le.mp hle) (by decide)
  rw [← Char.ofNat_toNat c] at h ⊢
  apply hall c.toNat hlt h

theorem of_isAlphanum {p : Char → Bool} (hp : alphanums.all p = true) {c : Char}
    (h : c.isAlphanum = true) :
  p c = true
  := List.all_eq_true.mp hp c (mem_alphanums h)

theorem isAlphanum_of_isAlpha {c : Char} (h : c.isAlpha = true) :
  c.isAlphanum = true
  := by
  rw [Char.isAlphanum, h, Bool.true_or]

theorem of_isAlpha {p : Char → Bool} (hp : (alphanums.all fun c => !c.isAlpha || p c) = true)
    {c : Char} (h : c.isAlpha = true) :
  p c = true
  := by
  have himplies := of_isAlphanum hp (isAlphanum_of_isAlpha h)
  rw [h] at himplies
  apply himplies

/-- The ASCII letters. -/
def letters : List Char :=
  "ABCDEFGHIJKLMNOPQRSTUVWXYZabcdefghijklmnopqrstuvwxyz".toList

theorem mem_letters {c : Char} (h : c.isAlpha = true) :
  c ∈ letters
  := by
  have hletter := of_isAlpha (p := letters.contains) (by decide +kernel) h
  apply List.contains_iff_mem.mp hletter

end AccessAudit.Text
