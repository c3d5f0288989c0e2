import AccessAudit.Proofs.Rule.TagMatches

/-!
# Segments of a line

A line is cut at every `>` into segments.  A search for a tag reports every opening of the tag.  A
search for a tag with a text never leaves a segment: it reports the first opening of the segment, if
the text stands somewhere after it, and takes everything up to the last place of the text, so that
nothing else is found in the segment.
-/

namespace AccessAudit.Rule

variable {tag text : String}

namespace Pattern

variable {p : Pattern} {before : Option Char}

/-! ### Searches that skip -/

/-- A search goes on behind the characters that lie in an earlier match. -/
theorem findFrom_length_append {offset : Nat} {s t : List Char} :
  findFrom p s.length offset before (s ++ t)
    = findFrom p 0 (offset + Text.byteLength s) (s.getLast?.or before) t
  := by
  induction s generalizing offset before with
  | nil => rfl
  | cons c s ih =>
    rw [List.length_cons, List.cons_append, findFrom, ih, getLast?_cons_or, Text.byteLength_cons,
      Nat.add_assoc]

/-- A search reports a match and goes on behind it. -/
theorem findFrom_of_matchAt {offset : Nat} {c : Char} {s : List Char} {place : Place}
    (h : matchAt p ⟨before, c :: (s ++ place.rest)⟩ = some place) :
  findFrom p 0 offset before (c :: (s ++ place.rest))
    = (offset, c :: (s ++ place.rest))
        :: findFrom p 0 (offset + Text.byteLength (c :: s)) ((c :: s).getLast?.or before) place.rest
  := by
  have hskip : (s ++ place.rest).length - place.rest.length = s.length := by
    rw [List.length_append, Nat.add_sub_cancel]
  rw [findFrom, h]
  simp only
  rw [hskip, findFrom_length_append, getLast?_cons_or, Text.byteLength_cons, Nat.add_assoc]

end Pattern

/-! ### First openings -/

/-- A tag that opens in a segment for the first time, with a text after it. -/
structure FirstOpening (tag text : String) (segment before after : List Char) : Prop where
  eq : segment = before ++ after
  opens : Opens tag after
  first : ∀ u v, segment = u ++ v → Opens tag v → before.length ≤ u.length
  later : Holds text after.tail

/-- A line that ends in some way has a longest such end. -/
theorem exists_longest_end {Q : List Char → Prop} (u : List Char) {v : List Char} (h : Q v) :
  ∃ before after, u ++ v = before ++ after ∧ Q after
    ∧ ∀ x y, u ++ v = x ++ y → Q y → before.length ≤ x.length
  := by
  induction u with
  | nil => exact ⟨[], v, rfl, h, fun _ _ _ _ => Nat.zero_le _⟩
  | cons c u ih =>
    by_cases hall : Q (c :: u ++ v)
    · exact ⟨[], c :: u ++ v, rfl, hall, fun _ _ _ _ => Nat.zero_le _⟩
    · obtain ⟨before, after, heq, hafter, hlongest⟩ := ih
      refine ⟨c :: before, after, by rw [List.cons_append, heq, List.cons_append], hafter, ?_⟩
      intro x y hxy hy
      cases x with
      | nil => exact absurd (hxy ▸ hy) hall
      | cons d x =>
        obtain ⟨-, hxy⟩ := List.cons.inj hxy
        exact Nat.succ_le_succ (hlongest x y hxy hy)

/-- A match in a segment is at its first opening or behind it. -/
theorem exists_firstOpening {u v : List Char} (hopens : Opens tag v) (hholds : Holds text v.tail) :
  ∃ before after, FirstOpening tag text (u ++ v) before after
  := by
  obtain ⟨before, after, heq, hafter, hfirst⟩ := exists_longest_end u hopens
  refine ⟨before, after, heq, hafter, hfirst, ?_⟩
  have hle := hfirst u v rfl hopens
  have hsuffix : v <:+ after := by
    apply List.suffix_of_suffix_length_le (List.suffix_append u v)
    · rw [heq]
      exact List.suffix_append before after
    · have := congrArg List.length heq
      simp only [List.length_append] at this
      omega
  apply hholds.mono
  obtain ⟨w, rfl⟩ := hsuffix
  cases w with
  | nil => exact List.infix_rfl
  | cons c w =>
    rw [List.cons_append, List.tail_cons]
    exact ((List.tail_suffix v).trans (List.suffix_append w v)).isInfix

/-- A segment has one first opening. -/
theorem FirstOpening.unique {segment left right left' right' : List Char}
    (h : FirstOpening tag text segment left right)
    (h' : FirstOpening tag text segment left' right') :
  left = left' ∧ right = right'
  := by
  apply List.append_inj (h.eq.symm.trans h'.eq)
  apply Nat.le_antisymm
  · exact h.first left' right' h'.eq h'.opens
  · exact h'.first left right h.eq h.opens

/-- What begins at the first opening of a segment has no `>`. -/
theorem FirstOpening.not_mem {segment left right : List Char}
    (h : FirstOpening tag text segment left right) (hsegment : '>' ∉ segment) :
  '>' ∉ right
  := by
  intro hmem
  apply hsegment
  rw [h.eq]
  exact List.mem_append_right left hmem

/-! ### Searches in a segment -/

section

variable {segment tail : List Char} {offset : Nat} {before : Option Char}
  (hapart : Apart tag text) (hsegment : '>' ∉ segment) (htail : Closes tail)

include hapart hsegment htail

/-- A search passes over a segment in which no opening has the text after it. -/
theorem findFrom_of_no_firstOpening
    (hnone : ∀ left right, ¬FirstOpening tag text segment left right) :
  Pattern.findFrom (tagWith tag text) 0 offset before (segment ++ tail)
    = Pattern.findFrom (tagWith tag text) 0 (offset + Text.byteLength segment)
        (segment.getLast?.or before) tail
  := by
  apply Pattern.findFrom_append
  intro u v hseg _
  rw [← Option.not_isSome_iff_eq_none]
  intro hmatch
  have hv : '>' ∉ v := by
    intro hmem
    apply hsegment
    rw [hseg]
    exact List.mem_append_right u hmem
  obtain ⟨hopens, hholds⟩ := (matchAt_tagWith_iff hapart hv htail).mp hmatch
  obtain ⟨left, right, hfirst⟩ := exists_firstOpening (u := u) hopens hholds
  rw [← hseg] at hfirst
  exact hnone left right hfirst

/-- A search reports the first opening of a segment that has the text after it, and nothing else in
the segment. -/
theorem findFrom_of_firstOpening {left right : List Char}
    (hfirst : FirstOpening tag text segment left right) :
  ∃ last, Pattern.findFrom (tagWith tag text) 0 offset before (segment ++ tail)
    = (offset + Text.byteLength left, right ++ tail)
        :: Pattern.findFrom (tagWith tag text) 0 (offset + Text.byteLength segment) last tail
  := by
  obtain ⟨rfl, hopens, hfirst, hlater⟩ := hfirst
  have hright : '>' ∉ right := fun hmem => hsegment (List.mem_append_right left hmem)
  -- No match begins before the opening.
  have hnone : ∀ u v, left = u ++ v → v ≠ [] →
      Pattern.matchAt (tagWith tag text) ⟨u.getLast?.or before, v ++ (right ++ tail)⟩ = none := by
    rintro u v rfl hv
    rw [← Option.not_isSome_iff_eq_none, ← List.append_assoc]
    intro hmatch
    have hclosed : '>' ∉ v ++ right := by
      intro hmem
      apply hsegment
      rw [List.append_assoc]
      exact List.mem_append_right u hmem
    have hle := hfirst u (v ++ right) (List.append_assoc u v right)
      ((matchAt_tagWith_iff hapart hclosed htail).mp hmatch).1
    rw [List.length_append] at hle
    have := List.length_pos_iff.mpr hv
    omega
  rw [List.append_assoc, Pattern.findFrom_append hnone]
  have hmatch : (Pattern.matchAt (tagWith tag text)
      ⟨left.getLast?.or before, right ++ tail⟩).isSome = true :=
    (matchAt_tagWith_iff hapart hright htail).mpr ⟨hopens, hlater⟩
  obtain ⟨place, hplace⟩ := Option.isSome_iff_exists.mp hmatch
  obtain ⟨head, taken, part, heq, -, -, -, hclosed, hlast⟩ :=
    Pattern.exists_of_matchAt_tagWith hapart hplace
  have hsplit : right ++ tail = '<' :: (head ++ (taken ++ part) ++ place.rest) := by
    rw [heq]
    simp
  obtain ⟨w, rfl, hrest⟩ := htail.exists_of_append_eq (a := '<' :: (head ++ (taken ++ part)))
    (by simpa using hclosed) hsplit
  have hw : '>' ∉ w := fun hmem => hright (List.mem_append_right _ hmem)
  rw [hrest, htail.tagRest_append hw] at hlast
  -- No match begins between the end of the match and the end of the segment.
  have hafter : ∀ u v, ¬FirstOpening tag text w u v := by
    rintro u v ⟨rfl, -, -, hholds⟩
    apply hlast
    exact hholds.mono ((List.tail_suffix v).trans (List.suffix_append u v)).isInfix
  rw [hsplit] at hplace ⊢
  rw [Pattern.findFrom_of_matchAt hplace, hrest, findFrom_of_no_firstOpening hapart hw htail hafter,
    Text.byteLength_append left, Text.byteLength_append _ w, Nat.add_assoc, Nat.add_assoc]
  exact ⟨_, rfl⟩

/-- What a search reports from a segment on: the first opening of the segment, if the text stands
after it, and what it reports behind the segment. -/
theorem mem_findFrom_segment :
  ∃ last, ∀ n rest,
    (n, rest) ∈ Pattern.findFrom (tagWith tag text) 0 offset before (segment ++ tail)
      ↔ (∃ left right, FirstOpening tag text segment left right
            ∧ n = offset + Text.byteLength left ∧ rest = right ++ tail)
        ∨ (n, rest) ∈ Pattern.findFrom (tagWith tag text) 0 (offset + Text.byteLength segment)
            last tail
  := by
  -- A match goes up to the last such text before the next `>`, so that there is one at most in a
  -- segment.
  by_cases hfirst : ∃ left right, FirstOpening tag text segment left right
  · obtain ⟨left, right, hfirst⟩ := hfirst
    obtain ⟨last, hfind⟩ : ∃ last, Pattern.findFrom (tagWith tag text) 0 offset before
        (segment ++ tail) = _ := findFrom_of_firstOpening hapart hsegment htail hfirst
    refine ⟨last, fun n rest => ?_⟩
    rw [hfind, List.mem_cons, Prod.mk.injEq]
    apply or_congr_left
    constructor
    · rintro ⟨rfl, rfl⟩
      exact ⟨left, right, hfirst, rfl, rfl⟩
    · rintro ⟨left', right', hfirst', rfl, rfl⟩
      obtain ⟨rfl, rfl⟩ := hfirst.unique hfirst'
      exact ⟨rfl, rfl⟩
  · have hnone : ∀ left right, ¬FirstOpening tag text segment left right :=
      fun left right h => hfirst ⟨left, right, h⟩
    refine ⟨segment.getLast?.or before, fun n rest => ?_⟩
    rw [findFrom_of_no_firstOpening hapart hsegment htail hnone]
    constructor
    · exact .inr
    · rintro (⟨left, right, h, -⟩ | h)
      · exact absurd h (hnone left right)
      · apply h

end

/-! ### Searches in a line -/

/-- The first segment of a line is the whole line, or it is followed by a `>` and the other
segments. -/
theorem exists_of_splitOn_eq_cons {line segment : List Char} {segments : List (List Char)}
    (h : line.splitOn '>' = segment :: segments) :
  '>' ∉ segment ∧ (line = segment ∧ segments = []
    ∨ ∃ rest, line = segment ++ '>' :: rest ∧ rest.splitOn '>' = segments)
  := by
  by_cases hmem : '>' ∈ line
  · obtain ⟨first, rest, rfl, hfirst⟩ := List.eq_append_cons_of_mem hmem
    rw [List.splitOn_append_cons_self_of_not_mem hfirst] at h
    obtain ⟨rfl, rfl⟩ := List.cons.inj h
    exact ⟨hfirst, .inr ⟨rest, rfl, rfl⟩⟩
  · rw [List.splitOn_eq_singleton hmem] at h
    obtain ⟨rfl, rfl⟩ := List.cons.inj h
    exact ⟨hmem, .inl ⟨rfl, rfl⟩⟩

/-- The text before a segment: every earlier segment with the `>` after it. -/
def textBefore (earlier : List (List Char)) : List Char :=
  earlier.flatMap fun segment => segment ++ ['>']

theorem textBefore_cons (segment : List Char) (earlier : List (List Char)) :
  textBefore (segment :: earlier) = segment ++ '>' :: textBefore earlier
  := by
  simp [textBefore]

/-- A search for a tag with a text reports the first openings of the segments that have the text
after them. -/
theorem exists_mem_findFrom_tagWith_iff (hapart : Apart tag text) {Q : List Char → Prop}
    {line : List Char} {segments : List (List Char)} (hline : line.splitOn '>' = segments)
    {offset n : Nat} {before : Option Char} :
  (∃ rest, (n, rest) ∈ Pattern.findFrom (tagWith tag text) 0 offset before line ∧ Q (tagRest rest))
    ↔ ∃ earlier segment later left right, segments = earlier ++ segment :: later
        ∧ FirstOpening tag text segment left right
        ∧ n = offset + Text.byteLength (textBefore earlier ++ left) ∧ Q right
  := by
  induction segments generalizing line offset before with
  | nil => exact absurd hline (List.splitOn_ne_nil '>' line)
  | cons segment segments ih =>
    obtain ⟨hsegment, hrest⟩ := exists_of_splitOn_eq_cons hline
    -- Behind the segment there is nothing, or a `>` and the other segments.
    obtain ⟨tail, rfl, htail, hbehind⟩ : ∃ tail, line = segment ++ tail ∧ Closes tail
        ∧ ∀ last, (∃ rest, (n, rest) ∈ Pattern.findFrom (tagWith tag text) 0
              (offset + Text.byteLength segment) last tail ∧ Q (tagRest rest))
          ↔ ∃ earlier segment' later left right, segments = earlier ++ segment' :: later
              ∧ FirstOpening tag text segment' left right
              ∧ n = offset + Text.byteLength (textBefore (segment :: earlier) ++ left)
              ∧ Q right := by
      rcases hrest with ⟨rfl, rfl⟩ | ⟨rest, rfl, hrest⟩
      · refine ⟨[], (List.append_nil _).symm, by simp [Closes], fun last => ?_⟩
        simp [Pattern.findFrom]
      · refine ⟨'>' :: rest, rfl, by simp [Closes], fun last => ?_⟩
        have hnone : Pattern.matchAt (tagWith tag text) ⟨last, '>' :: rest⟩ = none := rfl
        have hoffset : ∀ earlier left,
            offset + Text.byteLength (textBefore (segment :: earlier) ++ left)
            = offset + Text.byteLength segment + '>'.utf8Size
              + Text.byteLength (textBefore earlier ++ left) := by
          intro earlier left
          rw [textBefore_cons, List.append_assoc, Text.byteLength_append segment,
            List.cons_append, Text.byteLength_cons]
          omega
        rw [Pattern.findFrom, hnone]
        simp only [hoffset]
        apply ih hrest
    obtain ⟨last, hmem⟩ : ∃ last, ∀ m rest, (m, rest) ∈ Pattern.findFrom (tagWith tag text) 0
        offset before (segment ++ tail) ↔ _ := mem_findFrom_segment hapart hsegment htail
    constructor
    · rintro ⟨rest, hrest, hQ⟩
      rcases (hmem n rest).mp hrest with ⟨left, right, hfirst, hn, rfl⟩ | hrest
      · rw [htail.tagRest_append (hfirst.not_mem hsegment)] at hQ
        exact ⟨[], segment, segments, left, right, rfl, hfirst, hn, hQ⟩
      · obtain ⟨earlier, segment', later, left, right, rfl, hfirst, hn, hQ⟩ :=
          (hbehind last).mp ⟨rest, hrest, hQ⟩
        exact ⟨segment :: earlier, segment', later, left, right, rfl, hfirst, hn, hQ⟩
    · rintro ⟨earlier, segment', later, left, right, heq, hfirst, hn, hQ⟩
      cases earlier with
      | nil =>
        obtain ⟨rfl, rfl⟩ := List.cons.inj heq
        refine ⟨right ++ tail, (hmem n _).mpr (.inl ⟨left, right, hfirst, hn, rfl⟩), ?_⟩
        rw [htail.tagRest_append (hfirst.not_mem hsegment)]
        apply hQ
      | cons first earlier =>
        obtain ⟨rfl, heq'⟩ := List.cons.inj heq
        obtain ⟨rest, hrest, hQ⟩ :=
          (hbehind last).mpr ⟨earlier, segment', later, left, right, heq', hfirst, hn, hQ⟩
        exact ⟨rest, (hmem n rest).mpr (.inr hrest), hQ⟩

/-! ### Openings in a line -/

/-- A search for a tag reports every opening of the tag. -/
theorem mem_findFrom_of_opens (htag : '<' ∉ tag.toList) {skip offset : Nat} {before : Option Char}
    {w rest : List Char} (hskip : '<' ∉ (w ++ rest).take skip) (hopens : Opens tag rest) :
  (offset + Text.byteLength w, rest)
    ∈ Pattern.findFrom (tagStart tag) skip offset before (w ++ rest)
  := by
  induction w generalizing skip offset before with
  | nil =>
    obtain ⟨place, hplace⟩ : ∃ place, Pattern.matchAt (tagStart tag) ⟨before, rest⟩ = some place :=
      Option.isSome_iff_exists.mp (matchAt_tagStart_iff.mpr hopens)
    obtain ⟨head, left, rfl, -, -⟩ := hopens
    cases skip with
    | succ skip => simp at hskip
    | zero =>
      rw [List.nil_append, Pattern.findFrom, hplace]
      exact List.mem_cons_self
  | cons c w ih =>
    rw [Text.byteLength_cons, ← Nat.add_assoc, List.cons_append]
    cases skip with
    | succ skip =>
      apply ih
      intro hmem
      apply hskip
      rw [List.cons_append, List.take_succ_cons]
      exact List.mem_cons_of_mem c hmem
    | zero =>
      rw [Pattern.findFrom]
      split
      · rename_i place hplace
        apply List.mem_cons_of_mem
        apply ih
        -- The search goes on behind the match, and in the rest of the name there is no `<`.
        obtain ⟨head, heq, hhead⟩ := Pattern.exists_of_matchAt_tagStart hplace
        obtain ⟨-, heq⟩ := List.cons.inj heq
        rw [heq, List.length_append, Nat.add_sub_cancel, List.take_left]
        exact not_mem_of_map_fold_eq hhead rfl (by decide) htag
      · apply ih
        simp

/-- A search for a tag reports the openings of the tag. -/
theorem mem_find_tagStart_iff (htag : '<' ∉ tag.toList) {n : Nat} {line rest : List Char} :
  (n, rest) ∈ (tagStart tag).find line
    ↔ ∃ before, line = before ++ rest ∧ n = Text.byteLength before ∧ Opens tag rest
  := by
  constructor
  · intro h
    have hfind : (n, rest)
        ∈ Pattern.findFrom (tagStart tag) 0 (Text.byteLength []) [].getLast? line := h
    obtain ⟨before, hline, -, hlength, hmatch⟩ := Pattern.mem_findFrom hfind
    exact ⟨before, hline, hlength.symm, matchAt_tagStart_iff.mp hmatch⟩
  · rintro ⟨before, rfl, rfl, hopens⟩
    have h : (0 + Text.byteLength before, rest)
        ∈ Pattern.findFrom (tagStart tag) 0 0 none (before ++ rest) :=
      mem_findFrom_of_opens htag (by simp) hopens
    rw [Nat.zero_add] at h
    apply h

end AccessAudit.Rule
