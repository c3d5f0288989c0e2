import AccessAudit.Rule.Line

/-!
# Matches of line patterns

What a search reports are places of the line at which its pattern matches, with their distance in
bytes from the beginning of the line.  A match is not lost when a carriage return follows the line.
-/

namespace AccessAudit

theorem Text.byteLength_concat (s : List Char) (c : Char) :
  byteLength (s ++ [c]) = byteLength s + c.utf8Size
  := by
  rw [byteLength, List.foldl_append]
  rfl

namespace Rule.Pattern

/-! ### Repetitions -/

theorem getLast?_cons_or (c : Char) (s : List Char) (before : Option Char) :
  (c :: s).getLast?.or before = s.getLast?.or (some c)
  := by
  rw [List.getLast?_cons]
  cases s.getLast? with
  | none => rfl
  | some x => rfl

/-- A repetition goes on after some number of characters of its class. -/
theorem manyThen_isSome {β : Type} (k : CharClass) (next : Place → Option β) (before : Option Char)
    (s : List Char) :
  (manyThen k next before s).isSome = true
    ↔ ∃ taken rest, s = taken ++ rest ∧ (∀ c ∈ taken, k.holds c = true)
        ∧ (next ⟨taken.getLast?.or before, rest⟩).isSome = true
  := by
  -- The character before the repetition changes with each step, so it is generalized.
  induction s generalizing before with
  | nil =>
    rw [manyThen]
    constructor
    · intro h
      exact ⟨[], [], rfl, by simp, h⟩
    · rintro ⟨taken, rest, hs, -, h⟩
      obtain ⟨rfl, rfl⟩ := List.append_eq_nil_iff.mp hs.symm
      apply h
  | cons c s ih =>
    rw [manyThen]
    constructor
    · intro h
      by_cases hc : k.holds c = true
      · rw [if_pos hc] at h
        split at h
        · rename_i hmany
          obtain ⟨taken, rest, rfl, htaken, h⟩ := (ih (some c)).mp (by rw [hmany]; rfl)
          refine ⟨c :: taken, rest, rfl, ?_, ?_⟩
          · intro x hx
            cases hx with
            | head => apply hc
            | tail _ hx => apply htaken x hx
          · rw [getLast?_cons_or]
            apply h
        · exact ⟨[], c :: s, rfl, by simp, h⟩
      · rw [if_neg hc] at h
        exact ⟨[], c :: s, rfl, by simp, h⟩
    · rintro ⟨taken, rest, hs, htaken, h⟩
      cases taken with
      | nil =>
        cases hs
        split
        · split
          · rfl
          · apply h
        · apply h
      | cons x taken =>
        rw [List.cons_append, List.cons.injEq] at hs
        obtain ⟨rfl, rfl⟩ := hs
        have hmany : (manyThen k next (some c) (taken ++ rest)).isSome = true := by
          apply (ih (some c)).mpr
          refine ⟨taken, rest, rfl, fun y hy => htaken y (List.mem_cons_of_mem c hy), ?_⟩
          rw [getLast?_cons_or] at h
          apply h
        rw [if_pos (htaken c List.mem_cons_self)]
        split
        · rfl
        · rename_i hnone
          rw [hnone] at hmany
          cases hmany

/-- An optional character is taken or passed over. -/
theorem matchAt_optional (k : CharClass) (p : Pattern) (before : Option Char) (s : List Char) :
  (matchAt (.optional k :: p) ⟨before, s⟩).isSome = true
    ↔ (∃ c rest, s = c :: rest ∧ k.holds c = true ∧ (matchAt p ⟨some c, rest⟩).isSome = true)
      ∨ (matchAt p ⟨before, s⟩).isSome = true
  := by
  cases s with
  | nil => simp [matchAt]
  | cons c s =>
    simp only [matchAt]
    by_cases hc : k.holds c = true
    · rw [if_pos hc]
      cases hp : matchAt p ⟨some c, s⟩ with
      | none =>
        constructor
        · exact .inr
        · rintro (⟨x, rest, hs, -, h⟩ | h)
          · obtain ⟨rfl, rfl⟩ := List.cons.inj hs
            rw [hp] at h
            cases h
          · apply h
      | some place =>
        constructor
        · intro _
          exact .inl ⟨c, s, rfl, hc, by rw [hp]; rfl⟩
        · intro _
          rfl
    · rw [if_neg hc]
      simp [hc]

/-! ### Carriage returns -/

/-- A carriage return after the end is no word character, so it changes no word boundary. -/
theorem atBoundary_append_return (before : Option Char) (s : List Char) :
  Text.atBoundary before (s ++ ['\r']) = Text.atBoundary before s
  := by
  cases s with
  | nil =>
    have : Text.isWord '\r' = false := by decide +kernel
    simp [Text.atBoundary, this]
  | cons c s => rfl

/-- A pattern still matches at a place when a carriage return follows the text. -/
theorem matchAt_append_return {p : Pattern} {before : Option Char} {s : List Char}
    (h : (matchAt p ⟨before, s⟩).isSome = true) :
  (matchAt p ⟨before, s ++ ['\r']⟩).isSome = true
  := by
  induction p generalizing before s with
  | nil => rfl
  | cons piece p ih =>
    cases piece with
    | char c =>
      cases s with
      | nil => cases h
      | cons x s =>
        simp only [matchAt, List.cons_append] at h ⊢
        split at h
        · rw [if_pos ‹_›]
          apply ih h
        · cases h
    | one k =>
      cases s with
      | nil => cases h
      | cons x s =>
        simp only [matchAt, List.cons_append] at h ⊢
        split at h
        · rw [if_pos ‹_›]
          apply ih h
        · cases h
    | optional k =>
      -- The optional character is taken if what follows then matches, and else passed over.
      rw [matchAt_optional] at h ⊢
      rcases h with ⟨x, rest, rfl, hx, h⟩ | h
      · exact .inl ⟨x, rest ++ ['\r'], rfl, hx, ih h⟩
      · exact .inr (ih h)
    | many k =>
      simp only [matchAt, manyThen_isSome] at h ⊢
      obtain ⟨taken, rest, rfl, htaken, h⟩ := h
      exact ⟨taken, rest ++ ['\r'], by rw [List.append_assoc], htaken, ih h⟩
    | boundary =>
      simp only [matchAt] at h ⊢
      rw [atBoundary_append_return]
      split at h
      · rw [if_pos ‹_›]
        apply ih h
      · cases h

/-! ### Searches -/

/-- A search reports places at which its pattern matches. -/
theorem mem_findFrom {p : Pattern} {skip : Nat} {start s : List Char} {offset : Nat}
    {rest : List Char}
    (h : (offset, rest) ∈ findFrom p skip (Text.byteLength start) start.getLast? s) :
  ∃ between, s = between ++ rest ∧ rest ≠ [] ∧ Text.byteLength (start ++ between) = offset
    ∧ (matchAt p ⟨(start ++ between).getLast?, rest⟩).isSome = true
  := by
  induction s generalizing skip start with
  | nil => cases h
  | cons c s ih =>
    -- A place further on lies behind `c`, which then belongs to the text before it.
    have later : ∀ {skip}, (offset, rest)
          ∈ findFrom p skip (Text.byteLength start + c.utf8Size) (some c) s →
        ∃ between, c :: s = between ++ rest ∧ rest ≠ []
          ∧ Text.byteLength (start ++ between) = offset
          ∧ (matchAt p ⟨(start ++ between).getLast?, rest⟩).isSome = true := by
      intro skip h
      rw [← Text.byteLength_concat, ← List.getLast?_concat (l := start)] at h
      obtain ⟨between, rfl, hne, hlen, hmatch⟩ := ih h
      rw [List.append_assoc] at hlen hmatch
      exact ⟨c :: between, rfl, hne, hlen, hmatch⟩
    cases skip with
    | succ skip => apply later h
    | zero =>
      rw [findFrom] at h
      split at h
      · rename_i hmatch
        cases h with
        | head =>
          refine ⟨[], rfl, List.cons_ne_nil c s, ?_, ?_⟩
          · rw [List.append_nil]
          · rw [List.append_nil, hmatch]
            rfl
        | tail _ h => apply later h
      · apply later h

/-- The first match that nothing excuses is one at which the pattern matches. -/
theorem matchAt_of_firstMatch? {check : LineCheck} {line : List Char} {offset : Nat}
    (h : check.firstMatch? line = some offset) :
  ∃ before rest, line = before ++ rest ∧ rest ≠ [] ∧ Text.byteLength before = offset
    ∧ (check.pattern.matchAt ⟨before.getLast?, rest⟩).isSome = true
  := by
  obtain ⟨⟨offset', rest⟩, hfind, rfl⟩ := Option.map_eq_some_iff.mp h
  have hmem : (offset', rest) ∈ findFrom check.pattern 0 (Text.byteLength []) [].getLast? line :=
    List.mem_of_find?_eq_some hfind
  obtain ⟨before, hline, hne, hlen, hmatch⟩ := mem_findFrom hmem
  exact ⟨before, rest, hline, hne, hlen, hmatch⟩

end Rule.Pattern

end AccessAudit
