import AccessAudit.Proofs.Rule.Matches
import AccessAudit.Proofs.Text.Occurrence

/-!
# Openings of tags

What the patterns for tags match, in terms of the text alone: an opening is a `<`, a name in either
case and a word boundary, and a tag with a text is an opening with the text before the next `>`.  A
search passes over every stretch of a line in which no match begins.
-/

namespace AccessAudit.Rule

/-! ### Mentions -/

/-- A text is mentioned exactly if a part of the line is the text in either case. -/
theorem mentions_iff {text : String} {line : List Char} :
  mentions text line = true
    ↔ ∃ part, part <:+: line ∧ part.map Text.fold = text.toList.map Text.fold
  := by
  rw [mentions, Text.occurs_iff, List.infix_map_iff]
  constructor
  · rintro ⟨part, hpart, h⟩
    exact ⟨part, hpart, h.symm⟩
  · rintro ⟨part, hpart, h⟩
    exact ⟨part, hpart, h.symm⟩

theorem mentions_of_toList_infix {text : String} {whole line : List Char}
    (htext : text.toList <:+: whole) (hline : whole <:+: line) :
  mentions text line = true
  := by
  exact mentions_iff.mpr ⟨text.toList, htext.trans hline, rfl⟩

theorem ne_of_mem_tagRest {line : List Char} {c : Char} (h : c ∈ tagRest line) :
  c ≠ '>'
  := by
  have hall := List.all_takeWhile (p := (· != '>')) (l := line)
  simpa using List.all_eq_true.mp hall c h

namespace Pattern

/-! ### Matches of tags -/

/-- A character is matched by itself in either case. -/
theorem matchAt_char {c : Char} {p : Pattern} {before : Option Char} {line : List Char} :
  (matchAt (.char c :: p) ⟨before, line⟩).isSome = true
    ↔ ∃ x rest, line = x :: rest ∧ Text.fold x = Text.fold c
        ∧ (matchAt p ⟨some x, rest⟩).isSome = true
  := by
  cases line with
  | nil => simp [matchAt]
  | cons x line =>
    simp only [matchAt, List.cons.injEq]
    constructor
    · intro h
      split at h
      · exact ⟨x, line, ⟨rfl, rfl⟩, ‹_›, h⟩
      · cases h
    · rintro ⟨x, rest, ⟨rfl, rfl⟩, hfold, h⟩
      rw [if_pos hfold]
      apply h

/-- A character of a class is matched by it. -/
theorem matchAt_one {k : CharClass} {p : Pattern} {before : Option Char} {line : List Char} :
  (matchAt (.one k :: p) ⟨before, line⟩).isSome = true
    ↔ ∃ c rest, line = c :: rest ∧ k.holds c = true ∧ (matchAt p ⟨some c, rest⟩).isSome = true
  := by
  cases line with
  | nil => simp [matchAt]
  | cons x line =>
    simp only [matchAt, List.cons.injEq]
    constructor
    · intro h
      split at h
      · exact ⟨x, line, ⟨rfl, rfl⟩, ‹_›, h⟩
      · cases h
    · rintro ⟨c, rest, ⟨rfl, rfl⟩, hc, h⟩
      rw [if_pos hc]
      apply h

/-- A mark, which has no case, is matched by itself. -/
theorem matchAt_mark {c : Char} {p : Pattern} {before : Option Char} {line : List Char}
    (hfold : Text.fold c = c) (hc : c < 'a') :
  (matchAt (.char c :: p) ⟨before, line⟩).isSome = true
    ↔ ∃ rest, line = c :: rest ∧ (matchAt p ⟨some c, rest⟩).isSome = true
  := by
  rw [matchAt_char]
  constructor
  · rintro ⟨x, rest, rfl, hx, h⟩
    obtain rfl : x = c := Text.eq_of_fold_eq (hx.trans hfold) hc
    exact ⟨rest, rfl, h⟩
  · rintro ⟨rest, rfl, h⟩
    exact ⟨c, rest, rfl, rfl, h⟩

/-- A word boundary is matched where there is one, and takes nothing. -/
theorem matchAt_boundary {p : Pattern} {place : Place} :
  (matchAt (.boundary :: p) place).isSome = true
    ↔ Text.atBoundary place.before place.rest = true ∧ (matchAt p place).isSome = true
  := by
  rw [matchAt]
  split
  · simp [*]
  · simp [*]

/-- A text is matched by itself in either case. -/
theorem matchAt_text_append {s : List Char} {p : Pattern} {before : Option Char}
    {line : List Char} :
  (matchAt (s.map Piece.char ++ p) ⟨before, line⟩).isSome = true
    ↔ ∃ head rest, line = head ++ rest ∧ head.map Text.fold = s.map Text.fold
        ∧ (matchAt p ⟨head.getLast?.or before, rest⟩).isSome = true
  := by
  induction s generalizing before line with
  | nil =>
    constructor
    · intro h
      exact ⟨[], line, rfl, rfl, h⟩
    · rintro ⟨head, rest, rfl, hhead, h⟩
      obtain rfl := List.map_eq_nil_iff.mp hhead
      apply h
  | cons c s ih =>
    rw [List.map_cons, List.cons_append, matchAt_char]
    constructor
    · rintro ⟨x, line, rfl, hx, h⟩
      obtain ⟨head, rest, rfl, hhead, h⟩ := ih.mp h
      refine ⟨x :: head, rest, rfl, ?_, ?_⟩
      · rw [List.map_cons, List.map_cons, hx, hhead]
      · rw [getLast?_cons_or]
        apply h
    · rintro ⟨head, rest, rfl, hhead, h⟩
      obtain ⟨x, head, rfl, hx, hhead⟩ := List.map_eq_cons_iff.mp hhead
      rw [getLast?_cons_or] at h
      exact ⟨x, head ++ rest, rfl, hx, ih.mpr ⟨head, rest, rfl, hhead, h⟩⟩

/-- A tag is matched by a `<`, its name in either case, and a word boundary. -/
theorem matchAt_tagStart_append {name : String} {p : Pattern} {before : Option Char}
    {line : List Char} :
  (matchAt (tagStart name ++ p) ⟨before, line⟩).isSome = true
    ↔ ∃ head rest, line = '<' :: (head ++ rest)
        ∧ head.map Text.fold = name.toList.map Text.fold
        ∧ Text.atBoundary (head.getLast?.or (some '<')) rest = true
        ∧ (matchAt p ⟨head.getLast?.or (some '<'), rest⟩).isSome = true
  := by
  have hpieces : tagStart name ++ p
      = .char '<' :: (name.toList.map Piece.char ++ .boundary :: p) := by
    simp [tagStart, Pattern.text]
  rw [hpieces, matchAt_char]
  constructor
  · rintro ⟨c, line, rfl, hc, h⟩
    obtain rfl : c = '<' := Text.eq_of_fold_eq hc (by decide)
    obtain ⟨head, rest, rfl, hhead, h⟩ := matchAt_text_append.mp h
    obtain ⟨hword, h⟩ := matchAt_boundary.mp h
    exact ⟨head, rest, rfl, hhead, hword, h⟩
  · rintro ⟨head, rest, rfl, hhead, hword, h⟩
    refine ⟨'<', head ++ rest, rfl, rfl, ?_⟩
    exact matchAt_text_append.mpr ⟨head, rest, rfl, hhead, matchAt_boundary.mpr ⟨hword, h⟩⟩

/-- What begins a tag and goes on in some way begins a tag, whatever stands before it. -/
theorem matchAt_tagStart_of_append {name : String} {p : Pattern} {before : Option Char}
    (before' : Option Char) {line : List Char}
    (h : (matchAt (tagStart name ++ p) ⟨before, line⟩).isSome = true) :
  (matchAt (tagStart name) ⟨before', line⟩).isSome = true
  := by
  obtain ⟨head, rest, hline, hfold, hword, -⟩ := matchAt_tagStart_append.mp h
  rw [← List.append_nil (tagStart name)]
  exact matchAt_tagStart_append.mpr ⟨head, rest, hline, hfold, hword, rfl⟩

/-- A tag with a text is matched by the beginning of a tag that mentions the text before the next
`>`. -/
theorem matchAt_tagWith_of_mentions {name text : String} {before : Option Char}
    {head rest : List Char} (hhead : head.map Text.fold = name.toList.map Text.fold)
    (hword : Text.atBoundary (head.getLast?.or (some '<')) rest = true)
    (htext : mentions text (tagRest rest) = true) :
  (matchAt (tagWith name text) ⟨before, '<' :: (head ++ rest)⟩).isSome = true
  := by
  rw [tagWith, List.append_assoc]
  refine matchAt_tagStart_append.mpr ⟨head, rest, rfl, hhead, hword, ?_⟩
  obtain ⟨part, ⟨left, right, htag⟩, hpart⟩ := mentions_iff.mp htext
  -- What stands before the text is taken by the repetition, and what stands behind it is left.
  have hrest : rest = left ++ (part ++ (right ++ rest.dropWhile (· != '>'))) := by
    conv => lhs; rw [← List.takeWhile_append_dropWhile (p := (· != '>')) (l := rest)]
    rw [← tagRest, ← htag]
    simp
  rw [withinTag, List.singleton_append, matchAt, manyThen_isSome]
  refine ⟨left, _, hrest, ?_, ?_⟩
  · intro c hc
    have hmem : c ∈ tagRest rest := by
      rw [← htag]
      simp [hc]
    simpa [CharClass.holds] using ne_of_mem_tagRest hmem
  · rw [← List.append_nil (Pattern.text text)]
    exact matchAt_text_append.mpr ⟨part, _, rfl, hpart, rfl⟩

/-! ### Searches -/

/-- A search passes over a stretch in which no match begins. -/
theorem findFrom_append {p : Pattern} {offset : Nat} {before : Option Char} {s t : List Char}
    (hnone : ∀ u v, s = u ++ v → v ≠ [] → matchAt p ⟨u.getLast?.or before, v ++ t⟩ = none) :
  findFrom p 0 offset before (s ++ t)
    = findFrom p 0 (offset + Text.byteLength s) (s.getLast?.or before) t
  := by
  induction s generalizing offset before with
  | nil => rfl
  | cons c s ih =>
    have hc : matchAt p ⟨before, c :: (s ++ t)⟩ = none := by
      simpa using hnone [] (c :: s) rfl (List.cons_ne_nil c s)
    rw [List.cons_append, findFrom, hc, getLast?_cons_or, Text.byteLength_cons, ← Nat.add_assoc]
    apply ih
    intro u v hs hv
    rw [← getLast?_cons_or c u before]
    apply hnone (c :: u) v (by rw [hs, List.cons_append]) hv

/-- The first match that a search reports is the first one in the line. -/
theorem find_append_of_matchAt {p : Pattern} {s t : List Char}
    (hnone : ∀ u v, s = u ++ v → v ≠ [] → matchAt p ⟨u.getLast?, v ++ t⟩ = none) (ht : t ≠ [])
    (hmatch : (matchAt p ⟨s.getLast?, t⟩).isSome = true) :
  ∃ later, p.find (s ++ t) = (Text.byteLength s, t) :: later
  := by
  obtain ⟨c, t, rfl⟩ := List.exists_cons_of_ne_nil ht
  obtain ⟨place, hplace⟩ := Option.isSome_iff_exists.mp hmatch
  have hskip : p.find (s ++ c :: t) = findFrom p 0 (Text.byteLength s) s.getLast? (c :: t) := by
    rw [find, findFrom_append]
    · rw [Nat.zero_add, Option.or_none]
    · intro u v hs hv
      rw [Option.or_none]
      apply hnone u v hs hv
  rw [hskip, findFrom, hplace]
  exact ⟨_, rfl⟩

/-- Where a search finds nothing, there is no match. -/
theorem matchAt_eq_none_of_findFrom_eq_nil {p : Pattern} {offset : Nat} {before : Option Char}
    {u v : List Char} (h : findFrom p 0 offset before (u ++ v) = []) (hv : v ≠ []) :
  matchAt p ⟨u.getLast?.or before, v⟩ = none
  := by
  induction u generalizing offset before with
  | nil =>
    obtain ⟨c, v, rfl⟩ := List.exists_cons_of_ne_nil hv
    rw [List.nil_append, findFrom] at h
    split at h
    · cases h
    · assumption
  | cons c u ih =>
    rw [List.cons_append, findFrom] at h
    split at h
    · cases h
    · rw [getLast?_cons_or]
      apply ih h

/-- A check finds nothing in a line if every match of its pattern is excused. -/
theorem firstMatch?_eq_none_of_excused {check : LineCheck} {line : List Char}
    (h : ∀ u v, line = u ++ v → (check.pattern.matchAt ⟨u.getLast?, v⟩).isSome = true →
      check.excused v = true) :
  check.firstMatch? line = none
  := by
  apply Option.map_eq_none_iff.mpr
  apply List.find?_eq_none.mpr
  rintro ⟨offset, rest⟩ hmem
  have hfound : (offset, rest) ∈ findFrom check.pattern 0 (Text.byteLength []) [].getLast? line :=
    hmem
  obtain ⟨before, hline, -, -, hmatch⟩ := mem_findFrom hfound
  simp [h before rest hline hmatch]

end Pattern

end AccessAudit.Rule
