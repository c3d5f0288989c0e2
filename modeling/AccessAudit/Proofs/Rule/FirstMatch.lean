import AccessAudit.Proofs.Rule.Openings
import Mathlib.Data.List.Nodup
import Mathlib.Order.Bounds.Basic

/-!
# First matches

A search reports places from left to right, so the first match that nothing excuses is the least of
the places that are reported and not excused.  On every line of a document a check makes at most one
finding, at that place.
-/

namespace AccessAudit.Rule

/-! ### Order of matches -/

namespace Pattern

variable {p : Pattern} {skip offset : Nat} {before : Option Char} {s : List Char}

/-- What a search reports does not lie before the place from which it goes. -/
theorem offset_le_of_mem_findFrom {n : Nat} {rest : List Char}
    (h : (n, rest) ∈ findFrom p skip offset before s) :
  offset ≤ n
  := by
  induction s generalizing skip offset before with
  | nil => cases h
  | cons c s ih =>
    cases skip with
    | succ skip => exact (Nat.le_add_right _ _).trans (ih h)
    | zero =>
      rw [findFrom] at h
      split at h
      · cases h with
        | head => exact Nat.le_refl _
        | tail _ h => exact (Nat.le_add_right _ _).trans (ih h)
      · exact (Nat.le_add_right _ _).trans (ih h)

/-- A search reports places from left to right. -/
theorem pairwise_findFrom :
  (findFrom p skip offset before s).Pairwise fun a b => a.1 < b.1
  := by
  induction s generalizing skip offset before with
  | nil => exact .nil
  | cons c s ih =>
    cases skip with
    | succ skip => apply ih
    | zero =>
      rw [findFrom]
      split
      · refine .cons ?_ ih
        rintro ⟨n, rest⟩ h
        have hle := offset_le_of_mem_findFrom h
        have hpos := c.utf8Size_pos
        change offset < n
        omega
      · apply ih

end Pattern

/-- The first entry of an ordered list that passes a test is the one with the least key. -/
theorem map_find?_eq_some_iff {α : Type} {l : List (Nat × α)}
    (hl : l.Pairwise fun a b => a.1 < b.1) (test : α → Bool) {n : Nat} :
  (l.find? fun entry => test entry.2).map Prod.fst = some n
    ↔ IsLeast {n | ∃ a, (n, a) ∈ l ∧ test a = true} n
  := by
  -- By induction on the order: an entry that passes is before all later ones, and one that does
  -- not pass is no candidate.
  induction hl with
  | nil => simp [IsLeast]
  | @cons entry l hentry _ ih =>
    obtain ⟨m, a⟩ := entry
    by_cases ha : test a = true
    · rw [List.find?_cons_of_pos (by apply ha), Option.map_some, Option.some.injEq]
      have hleast : IsLeast {n | ∃ b, (n, b) ∈ (m, a) :: l ∧ test b = true} m := by
        refine ⟨⟨a, List.mem_cons_self, ha⟩, ?_⟩
        rintro k ⟨b, hb, -⟩
        cases hb with
        | head => exact Nat.le_refl m
        | tail _ hb => exact (hentry (k, b) hb).le
      constructor
      · rintro rfl
        apply hleast
      · apply hleast.unique
    · rw [List.find?_cons_of_neg (by apply ha), ih]
      have hsame : ∀ k, (∃ b, (k, b) ∈ (m, a) :: l ∧ test b = true)
          ↔ ∃ b, (k, b) ∈ l ∧ test b = true := by
        intro k
        constructor
        · rintro ⟨b, hb, htest⟩
          cases hb with
          | head => exact absurd htest ha
          | tail _ hb => exact ⟨b, hb, htest⟩
        · rintro ⟨b, hb, htest⟩
          exact ⟨b, List.mem_cons_of_mem _ hb, htest⟩
      simp only [hsame]

namespace LineCheck

variable {check : LineCheck} {line : List Char}

/-- A place of a line that a search reports and nothing excuses. -/
def Flags (check : LineCheck) (line : List Char) (n : Nat) : Prop :=
  ∃ rest, (n, rest) ∈ check.pattern.find line ∧ check.excused rest = false

theorem firstMatch?_eq_some_iff {n : Nat} :
  check.firstMatch? line = some n ↔ IsLeast {n | check.Flags line n} n
  := by
  have h := map_find?_eq_some_iff (l := check.pattern.find line) Pattern.pairwise_findFrom
    (fun rest => !check.excused rest) (n := n)
  simp only [Bool.not_eq_true'] at h
  apply h

/-- There is no first match exactly if every match is excused. -/
theorem firstMatch?_eq_none_iff :
  check.firstMatch? line = none ↔ ∀ n, ¬check.Flags line n
  := by
  rw [firstMatch?, Option.map_eq_none_iff, List.find?_eq_none]
  constructor
  · rintro h n ⟨rest, hmem, hexcused⟩
    apply h (n, rest) hmem
    simpa using hexcused
  · rintro h ⟨n, rest⟩ hmem hexcused
    exact h n ⟨rest, hmem, by simpa using hexcused⟩

end LineCheck

/-! ### Findings of a check -/

/-- The findings of a rule on a line of a document that carry the message of a check. -/
def LineRule.foundBy (rule : LineRule) (check : LineCheck) (d : Document) (number : Nat) :
    List Finding :=
  (rule.findings d).filter fun f => f.location.line == number && f.message == check.message

/-- Where members of one key alone give something, a member of that key gives all of it. -/
theorem flatMap_eq_of_nodup {α β κ : Type} {key : α → κ} {l : List α} (hl : (l.map key).Nodup)
    {a : α} (ha : a ∈ l) {g : α → List β} (hg : ∀ b, key b ≠ key a → g b = []) :
  l.flatMap g = g a
  := by
  obtain ⟨left, right, rfl⟩ := List.append_of_mem ha
  rw [List.map_append, List.map_cons, List.nodup_middle, List.nodup_cons, List.mem_append] at hl
  -- A member on either side has another key.
  have hside : ∀ side : List α, key a ∉ side.map key → side.flatMap g = [] := by
    intro side hside
    apply List.flatMap_eq_nil_iff.mpr
    intro b hb
    apply hg
    intro heq
    exact hside (heq ▸ List.mem_map_of_mem hb)
  rw [List.flatMap_append, List.flatMap_cons, hside left fun h => hl.1 (.inl h),
    hside right fun h => hl.1 (.inr h), List.nil_append, List.append_nil]

/-- No two lines of a document have the same number. -/
theorem nodup_numberedLines (d : Document) :
  (d.numberedLines.map Prod.fst).Nodup
  := by
  have hnumbers : d.numberedLines.map Prod.fst = (d.rawLines.zipIdx.map Prod.snd).map (· + 1) := by
    simp only [Document.numberedLines, List.map_map]
    rfl
  rw [hnumbers, List.zipIdx_map_snd]
  apply List.Nodup.map (fun _ _ => Nat.succ.inj) List.nodup_range'

namespace LineCheck

variable {check : LineCheck} {rule : String} {d : Document} {number : Nat} {line : List Char}

theorem eq_of_mem_finding? {f : Finding} (h : f ∈ check.finding? rule d number line) :
  f.location.line = number ∧ f.message = check.message
  := by
  obtain ⟨offset, -, rfl⟩ := Option.map_eq_some_iff.mp h
  exact ⟨rfl, rfl⟩

/-- A check makes a finding exactly where its first match is. -/
theorem firstMatch?_eq_some_iff_finding? {n : Nat} :
  check.firstMatch? line = some n
    ↔ ∃ f, check.finding? rule d number line = some f ∧ f.location = d.location number (n + 1)
  := by
  rw [finding?]
  cases check.firstMatch? line with
  | none => simp
  | some m => simp [Document.location]

end LineCheck

/-- A check makes its finding on a line and no other one there, if no other check of its rule has
its message. -/
theorem LineRule.foundBy_eq {rule : LineRule} {check : LineCheck} (hcheck : check ∈ rule.checks)
    (hmessages : (rule.checks.map LineCheck.message).Nodup) {d : Document} {number : Nat}
    {line : List Char} (hline : (number, line) ∈ d.numberedLines) :
  rule.foundBy check d number = (check.finding? rule.id d number line).toList
  := by
  have hlines : ∀ b : Nat × List Char, b.1 ≠ number →
      (rule.checks.filterMap fun c => c.finding? rule.id d b.1 b.2).filter
        (fun f => f.location.line == number && f.message == check.message) = [] := by
    intro b hb
    apply List.filter_eq_nil_iff.mpr
    intro f hf
    obtain ⟨c, -, hf⟩ := List.mem_filterMap.mp hf
    obtain ⟨hnumber, -⟩ := LineCheck.eq_of_mem_finding? hf
    simp [hnumber, hb]
  have hchecks : ∀ c : LineCheck, c.message ≠ check.message →
      (c.finding? rule.id d number line).toList.filter
        (fun f => f.location.line == number && f.message == check.message) = [] := by
    intro c hc
    apply List.filter_eq_nil_iff.mpr
    intro f hf
    obtain ⟨-, hmessage⟩ := LineCheck.eq_of_mem_finding? (Option.mem_toList.mp hf)
    simp [hmessage, hc]
  rw [foundBy, findings, List.filter_flatMap,
    flatMap_eq_of_nodup (nodup_numberedLines d) hline hlines, List.filterMap_eq_flatMap_toList,
    List.filter_flatMap, flatMap_eq_of_nodup hmessages hcheck hchecks]
  apply List.filter_eq_self.mpr
  intro f hf
  obtain ⟨hnumber, hmessage⟩ := LineCheck.eq_of_mem_finding? (Option.mem_toList.mp hf)
  simp [hnumber, hmessage]

end AccessAudit.Rule
