import AccessAudit.Text.Affix
import AccessAudit.Text.Blank
import AccessAudit.Text.Fold
import AccessAudit.Text.Lines
import AccessAudit.Text.Word

/-!
# Texts inside a text

A text occurs in another one exactly if it is a part of it.  Only letters have more than one
character that folds to them, and no blank is a word character.
-/

namespace AccessAudit.Text

/-! ### Parts -/

/-- There is a rest after `lead` exactly if the list begins with it. -/
theorem isSome_rest?_iff {α : Type} [DecidableEq α] {lead s : List α} :
  (rest? lead s).isSome = true ↔ lead <+: s
  := by
  constructor
  · intro h
    obtain ⟨r, hr⟩ := Option.isSome_iff_exists.mp h
    exact ⟨r, (eq_append_of_rest? hr).symm⟩
  · rintro ⟨r, rfl⟩
    rw [rest?_append]
    rfl

theorem occurs_iff {α : Type} [DecidableEq α] {part s : List α} :
  occurs part s = true ↔ part <:+: s
  := by
  induction s with
  | nil => rw [occurs, List.isEmpty_iff, List.infix_nil]
  | cons c s ih => rw [occurs, Bool.or_eq_true, isSome_rest?_iff, ih, List.infix_cons_iff]

/-- A part without some character stands on one side of the character. -/
theorem infix_append_cons_iff {α : Type} {part s t : List α} {c : α} (hc : c ∉ part) :
  part <:+: s ++ c :: t ↔ part <:+: s ∨ part <:+: t
  := by
  have hempty : ∀ {u}, u <:+: part → u <+: c :: t → u = [] := by
    intro u hpart hu
    rcases List.prefix_cons_iff.mp hu with hu | ⟨v, rfl, -⟩
    · apply hu
    · exact absurd (hpart.mem List.mem_cons_self) hc
  constructor
  · intro h
    rcases List.infix_append_iff.mp h with h | h | ⟨u, v, rfl, hu, hv⟩
    · exact .inl h
    · rcases List.infix_cons_iff.mp h with h | h
      · rw [hempty List.infix_rfl h]
        exact .inl (List.nil_infix)
      · exact .inr h
    · -- What reaches over the end of the first text would begin with the character.
      rw [hempty (List.suffix_append u v).isInfix hv, List.append_nil]
      exact .inl hu.isInfix
  · rintro (h | h)
    · apply h.trans (List.prefix_append s _).isInfix
    · apply h.trans ((List.suffix_cons c t).trans (List.suffix_append s _)).isInfix

/-! ### Bytes -/

/-- The bytes of a text are those of its first character and of the others. -/
@[simp]
theorem byteLength_cons (c : Char) (s : List Char) :
  byteLength (c :: s) = c.utf8Size + byteLength s
  := by
  have count : ∀ n, s.foldl (fun n c => n + c.utf8Size) n = n + byteLength s := by
    rw [byteLength]
    induction s with
    | nil => intro n; rfl
    | cons x s ih =>
      intro n
      rw [List.foldl_cons, List.foldl_cons, ih, ih (0 + x.utf8Size), Nat.zero_add, Nat.add_assoc]
  rw [byteLength, List.foldl_cons, count, Nat.zero_add]

@[simp]
theorem byteLength_append (s t : List Char) :
  byteLength (s ++ t) = byteLength s + byteLength t
  := by
  induction s with
  | nil => exact (Nat.zero_add _).symm
  | cons c s ih => rw [List.cons_append, byteLength_cons, byteLength_cons, ih, Nat.add_assoc]

/-! ### Classes of characters -/

/-- A character whose small form is one before the small letters is that character. -/
theorem eq_of_toLower_eq {c d : Char} (h : c.toLower = d) (hd : d < 'a') :
  c = d
  := by
  unfold Char.toLower at h
  split at h
  · rename_i hupper
    rw [← h] at hd
    -- A shifted capital letter is a small one, which `d` is not.
    simp only [Char.lt_def, ge_iff_le, UInt32.lt_iff_toNat_lt, UInt32.le_iff_toNat_le,
      UInt32.toNat_add, Char.reduceVal, UInt32.reduceToNat, UInt32.reduceSub, Char.toNat_val,
      Nat.reducePow] at hd hupper
    omega
  · apply h

/-- A character that folds to one before the small letters is that character. -/
theorem eq_of_fold_eq {c d : Char} (h : fold c = d) (hd : d < 'a') :
  c = d
  := by
  unfold fold at h
  split at h
  · rw [← h] at hd
    exact absurd hd (by decide)
  · split at h
    · rw [← h] at hd
      exact absurd hd (by decide)
    · apply eq_of_toLower_eq h hd

/-- Sets of characters without a common interval have no common character. -/
theorem Ranges.contains_eq_false_of_apart {table other : Ranges}
    (apart : ∀ range ∈ table, ∀ range' ∈ other, range.2 < range'.1 ∨ range'.2 < range.1) {c : Char}
    (hc : table.contains c = true) :
  other.contains c = false
  := by
  obtain ⟨range, hrange, hlow, hhigh⟩ := contains_iff.mp hc
  rw [Bool.eq_false_iff]
  intro hother
  obtain ⟨range', hrange', hlow', hhigh'⟩ := contains_iff.mp hother
  have := apart range hrange range' hrange'
  omega

/-- Letters are word characters. -/
theorem isWord_of_isAlpha {c : Char} (hc : c.isAlpha = true) :
  isWord c = true
  := by
  apply Ranges.contains_iff.mpr
  unfold Char.isAlpha Char.isUpper Char.isLower at hc
  simp only [Bool.or_eq_true, Bool.and_eq_true, decide_eq_true_eq, ge_iff_le,
    UInt32.le_iff_toNat_le, Char.toNat_val] at hc
  rcases hc with ⟨hlow, hhigh⟩ | ⟨hlow, hhigh⟩
  · exact ⟨(0x41, 0x5a), by decide, hlow, hhigh⟩
  · exact ⟨(0x61, 0x7a), by decide, hlow, hhigh⟩

theorem isWord_eq_false_of_isBlank {c : Char} (hc : isBlank c = true) :
  isWord c = false
  := by
  apply Ranges.contains_eq_false_of_apart _ hc
  decide +kernel

end AccessAudit.Text
