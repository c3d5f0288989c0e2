import AccessAudit.Text.Lines
import Mathlib.Data.List.TakeWhile

/-!
# Lines of a text

The pieces of a text are those of the library's splitting function, so a text with `n` line feeds
has `n + 1` lines, and a character stands on the line that the line feeds before it give.  Cutting
off blanks keeps every other character, and a carriage return at the end is a blank.
-/

namespace AccessAudit.Text

/-! ### Pieces -/

/-- Pieces are what the splitting of a list gives. -/
theorem pieces_eq_splitOnP {α : Type} (stop : α → Bool) (s : List α) :
  pieces stop s = s.splitOnP stop
  := by
  induction s with
  | nil => rw [List.splitOnP_nil, pieces, List.foldr_nil]
  | cons c s ih =>
    obtain ⟨part, rest, hparts⟩ := List.exists_cons_of_ne_nil (List.splitOnP_ne_nil stop s)
    rw [hparts, pieces] at ih
    rw [pieces, List.foldr_cons, ih, List.splitOnP_cons_eq_if_modifyHead, hparts]
    split
    · rfl
    · rfl

theorem lines_eq_splitOn (s : List Char) :
  lines s = s.splitOn '\n'
  := by
  rw [lines, pieces_eq_splitOnP, List.splitOn_eq_splitOnP]

/-- A text has one line more than it has line feeds. -/
@[simp]
theorem length_splitOn (s : List Char) :
  (s.splitOn '\n').length = s.count '\n' + 1
  := by
  induction s with
  | nil => simp
  | cons c s ih =>
    rw [List.splitOn_cons_eq_if_modifyHead, List.count_cons]
    split <;> simp [ih]

/-- A character stands on the line that the line feeds before it give. -/
theorem exists_mem_line (before after : List Char) {c : Char} (hc : c ≠ '\n') :
  ∃ line, ((before ++ c :: after).splitOn '\n')[before.count '\n']? = some line ∧ c ∈ line
  := by
  induction before with
  | nil =>
    rw [List.nil_append, List.splitOn_cons_eq_if_modifyHead, if_neg (by simpa using hc)]
    cases h : after.splitOn '\n' with
    | nil => exact absurd h (List.splitOn_ne_nil '\n' after)
    | cons part rest => exact ⟨c :: part, rfl, List.mem_cons_self⟩
  | cons x before ih =>
    obtain ⟨line, hline, hmem⟩ := ih
    rw [List.cons_append, List.splitOn_cons_eq_if_modifyHead, List.count_cons]
    by_cases hx : x = '\n'
    · refine ⟨line, ?_, hmem⟩
      rw [if_pos (by simpa using hx), if_pos (by simpa using hx), List.getElem?_cons_succ]
      apply hline
    · rw [if_neg (by simpa using hx), if_neg (by simpa using hx), Nat.add_zero,
        List.getElem?_modifyHead, hline]
      cases before.count '\n' with
      | zero => exact ⟨x :: line, rfl, List.mem_cons_of_mem x hmem⟩
      | succ n => exact ⟨line, rfl, hmem⟩

/-! ### Blanks at the ends -/

theorem trimEnd_isPrefix (s : List Char) :
  trimEnd s <+: s
  := by
  rw [trimEnd, ← List.reverse_suffix, List.reverse_reverse]
  apply List.dropWhile_suffix

/-- Dropping blanks keeps every other character. -/
theorem mem_dropWhile_isBlank {c : Char} {s : List Char} (h : c ∈ s) (hc : isBlank c = false) :
  c ∈ s.dropWhile isBlank
  := by
  induction s with
  | nil => cases h
  | cons x s ih =>
    rw [List.dropWhile_cons]
    split
    · cases h with
      | head => simp_all
      | tail _ h => apply ih h
    · apply h

theorem mem_trim {c : Char} {s : List Char} (h : c ∈ s) (hc : isBlank c = false) :
  c ∈ trim s
  := by
  rw [trim, trimEnd, List.mem_reverse]
  apply mem_dropWhile_isBlank _ hc
  rw [List.mem_reverse]
  apply mem_dropWhile_isBlank h hc

theorem trimEnd_append_blanks (s : List Char) {after : List Char}
    (hafter : ∀ c ∈ after, isBlank c = true) :
  trimEnd (s ++ after) = trimEnd s
  := by
  rw [trimEnd, trimEnd, List.reverse_append, List.dropWhile_append_of_pos]
  intro c hc
  apply hafter c (List.mem_reverse.mp hc)

/-- Blanks after a text do not matter if blanks are cut off. -/
theorem trim_append_blanks (s : List Char) {after : List Char}
    (hafter : ∀ c ∈ after, isBlank c = true) :
  trim (s ++ after) = trim s
  := by
  rw [trim, trim, List.dropWhile_append]
  split
  · rename_i hnone
    rw [List.isEmpty_iff.mp hnone, List.dropWhile_eq_nil_iff.mpr hafter]
  · apply trimEnd_append_blanks _ hafter

theorem trim_between_blanks (s : List Char) {before after : List Char}
    (hbefore : ∀ c ∈ before, isBlank c = true) (hafter : ∀ c ∈ after, isBlank c = true) :
  trim (before ++ s ++ after) = trim s
  := by
  rw [trim_append_blanks _ hafter, trim, List.dropWhile_append_of_pos hbefore, trim]

/-- A carriage return at the end of a line does not matter if blanks are cut off. -/
@[simp]
theorem trim_dropReturn (line : List Char) :
  trim (dropReturn line) = trim line
  := by
  unfold dropReturn
  split
  · rename_i h
    obtain ⟨start, rfl⟩ := List.getLast?_eq_some_iff.mp h
    rw [List.dropLast_concat]
    apply (trim_append_blanks start _).symm
    exact List.all_eq_true.mp (by decide)
  · rfl

end AccessAudit.Text
