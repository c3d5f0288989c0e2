import AccessAudit.Proofs.Rule.OpeningTag

/-!
# Matches of tags

What the patterns for tags match, said without patterns.  A pattern for a tag takes the opening of
the tag.  A pattern for a tag with a text matches where the tag opens and the text stands before the
next `>`, and takes all that stands before the last such place of the text.
-/

namespace AccessAudit.Rule

/-! ### Openings and texts -/

/-- A text stands somewhere in a line, in letters of either case. -/
def Holds (text : String) (s : List Char) : Prop :=
  ∃ part, part <:+: s ∧ part.map Text.fold = text.toList.map Text.fold

/-- A tag opens at the beginning of a line: a `<`, its name in letters of either case, and a word
boundary. -/
def Opens (tag : String) (s : List Char) : Prop :=
  ∃ head rest, s = '<' :: (head ++ rest) ∧ head.map Text.fold = tag.toList.map Text.fold
    ∧ Text.atBoundary ('<' :: head).getLast? rest = true

/-- The names of a tag and a text that a segment may hold, where the text cannot begin in the
opening of the tag. -/
structure Apart (tag text : String) : Prop where
  tag_closed : '>' ∉ tag.toList
  text_closed : '>' ∉ text.toList
  begins : ∃ c rest, text.toList = c :: rest ∧ Text.fold c ∉ tag.toList.map Text.fold

variable {tag text : String}

theorem Holds.mono {s t : List Char} (h : Holds text s) (hst : s <:+: t) :
  Holds text t
  := by
  obtain ⟨part, hpart, hfold⟩ := h
  exact ⟨part, hpart.trans hst, hfold⟩

/-- A character before the small letters that is not in a text is in no text that differs from it by
case alone. -/
theorem not_mem_of_map_fold_eq {part s : List Char} {c : Char}
    (h : part.map Text.fold = s.map Text.fold) (hfold : Text.fold c = c) (hc : c < 'a')
    (hs : c ∉ s) :
  c ∉ part
  := by
  intro hpart
  have hmem : c ∈ s.map Text.fold := by
    rw [← h, ← hfold]
    apply List.mem_map_of_mem hpart
  obtain ⟨x, hx, hxc⟩ := List.mem_map.mp hmem
  rw [Text.eq_of_fold_eq hxc hc] at hx
  exact hs hx

/-- A text that stands after the `<` of an opening stands after the opening. -/
theorem Apart.holds_of_append (h : Apart tag text) {head rest : List Char}
    (hhead : head.map Text.fold = tag.toList.map Text.fold) (hholds : Holds text (head ++ rest)) :
  Holds text rest
  := by
  obtain ⟨c, s, htext, hc⟩ := h.begins
  obtain ⟨part, ⟨left, right, heq⟩, hfold⟩ := hholds
  rw [htext, List.map_cons] at hfold
  obtain ⟨x, part, rfl, hx, hpart⟩ := List.map_eq_cons_iff.mp hfold
  refine ⟨x :: part, ?_, by rw [htext, List.map_cons, List.map_cons, hx, hpart]⟩
  have hmem : x ∉ head := by
    intro hmem
    apply hc
    rw [← hhead, ← hx]
    apply List.mem_map_of_mem hmem
  rw [List.append_assoc, List.cons_append] at heq
  obtain ⟨w, hw⟩ := exists_append_of_not_mem hmem heq.symm
  exact ⟨w, right, by rw [hw, List.append_assoc, List.cons_append]⟩

/-! ### Ends of segments -/

/-- What follows a segment: nothing, or a `>`. -/
def Closes (tail : List Char) : Prop :=
  ∀ c ∈ tail.head?, c = '>'

section

variable {s tail : List Char} (hs : '>' ∉ s) (htail : Closes tail)

include htail

/-- What follows a segment holds nothing up to the next `>`. -/
theorem Closes.tagRest_eq_nil :
  tagRest tail = []
  := by
  cases tail with
  | nil => rfl
  | cons c tail =>
    obtain rfl : c = '>' := htail c rfl
    rfl

/-- The end of a segment changes no word boundary. -/
theorem Closes.atBoundary_append (before : Option Char) :
  Text.atBoundary before (s ++ tail) = Text.atBoundary before s
  := by
  cases s with
  | nil =>
    cases tail with
    | nil => rfl
    | cons c tail =>
      obtain rfl : c = '>' := htail c rfl
      have : Text.isWord '>' = false := by decide +kernel
      simp [Text.atBoundary, this]
  | cons c s => rfl

/-- What has no `>` and begins in a segment ends in it. -/
theorem Closes.exists_of_append_eq {a r : List Char} (ha : '>' ∉ a) (h : s ++ tail = a ++ r) :
  ∃ w, s = a ++ w ∧ r = w ++ tail
  := by
  rcases List.append_eq_append_iff.mp h with ⟨w, rfl, hw⟩ | ⟨w, hw, hr⟩
  · cases w with
    | nil => exact ⟨[], by simp, hw.symm⟩
    | cons c w =>
      obtain rfl : c = '>' := htail c (by rw [hw]; rfl)
      simp at ha
  · exact ⟨w, hw, hr⟩

include hs

theorem Closes.tagRest_append :
  tagRest (s ++ tail) = s
  := by
  rw [Rule.tagRest_append hs, htail.tagRest_eq_nil, List.append_nil]

end

namespace Pattern

variable {p : Pattern} {before : Option Char}

/-! ### Ends of matches -/

/-- The pattern of a text takes the text in either case. -/
theorem matchAt_text_append_eq {s head : List Char} (h : head.map Text.fold = s.map Text.fold)
    (rest : List Char) :
  matchAt (s.map Piece.char ++ p) ⟨before, head ++ rest⟩
    = matchAt p ⟨head.getLast?.or before, rest⟩
  := by
  induction s generalizing head before with
  | nil =>
    obtain rfl := List.map_eq_nil_iff.mp h
    rfl
  | cons c s ih =>
    obtain ⟨x, head, rfl, hx, hhead⟩ := List.map_eq_cons_iff.mp h
    rw [List.map_cons, List.cons_append, List.cons_append, matchAt, getLast?_cons_or]
    simp only [if_pos hx]
    apply ih hhead

/-- The pattern of a tag takes the opening of the tag. -/
theorem matchAt_tagStart_append_eq {head rest : List Char}
    (hhead : head.map Text.fold = tag.toList.map Text.fold)
    (hword : Text.atBoundary (head.getLast?.or (some '<')) rest = true) :
  matchAt (tagStart tag ++ p) ⟨before, '<' :: (head ++ rest)⟩
    = matchAt p ⟨head.getLast?.or (some '<'), rest⟩
  := by
  have hpieces : tagStart tag ++ p
      = ['<'].map Piece.char ++ (tag.toList.map Piece.char ++ .boundary :: p) := by
    simp [tagStart, Pattern.text]
  rw [hpieces]
  have hopen : matchAt (['<'].map Piece.char ++ (tag.toList.map Piece.char ++ .boundary :: p))
        ⟨before, ['<'] ++ (head ++ rest)⟩
      = matchAt (tag.toList.map Piece.char ++ .boundary :: p) ⟨some '<', head ++ rest⟩ :=
    matchAt_text_append_eq rfl _
  apply hopen.trans
  rw [matchAt_text_append_eq hhead, matchAt, if_pos hword]

/-- A repetition takes as many characters of its class as it can. -/
theorem exists_of_manyThen_eq_some {β : Type} {k : CharClass} {next : Place → Option β}
    {s : List Char} {result : β} (h : manyThen k next before s = some result) :
  ∃ taken rest, s = taken ++ rest ∧ (∀ c ∈ taken, k.holds c = true)
    ∧ next ⟨taken.getLast?.or before, rest⟩ = some result
    ∧ ∀ more left, s = more ++ left → (∀ c ∈ more, k.holds c = true) →
        taken.length < more.length → next ⟨more.getLast?.or before, left⟩ = none
  := by
  induction s generalizing before with
  | nil =>
    refine ⟨[], [], rfl, by simp, h, ?_⟩
    intro more left hs _ hlength
    obtain ⟨rfl, -⟩ := List.append_eq_nil_iff.mp hs.symm
    cases hlength
  | cons c s ih =>
    rw [manyThen] at h
    by_cases hc : k.holds c = true
    · rw [if_pos hc] at h
      split at h
      · rename_i hmany
        obtain rfl := Option.some.inj h
        obtain ⟨taken, rest, rfl, htaken, hnext, hmost⟩ := ih hmany
        refine ⟨c :: taken, rest, rfl, List.forall_mem_cons.mpr ⟨hc, htaken⟩, ?_, ?_⟩
        · rw [getLast?_cons_or]
          apply hnext
        · intro more left hs hmore hlength
          cases more with
          | nil => cases hlength
          | cons x more =>
            obtain ⟨rfl, hs'⟩ := List.cons.inj hs
            rw [getLast?_cons_or]
            exact hmost more left hs' (List.forall_mem_cons.mp hmore).2 (by simpa using hlength)
      -- With the first character taken there is no way to go on, so nothing longer fits.
      · rename_i hmany
        refine ⟨[], c :: s, rfl, by simp, h, ?_⟩
        intro more left hs hmore hlength
        cases more with
        | nil => cases hlength
        | cons x more =>
          obtain ⟨rfl, hs'⟩ := List.cons.inj hs
          rw [getLast?_cons_or, ← Option.not_isSome_iff_eq_none]
          intro hsome
          have hmany' := (manyThen_isSome k next (some c) s).mpr
            ⟨more, left, hs', (List.forall_mem_cons.mp hmore).2, hsome⟩
          rw [hmany] at hmany'
          cases hmany'
    · rw [if_neg hc] at h
      refine ⟨[], c :: s, rfl, by simp, h, ?_⟩
      intro more left hs hmore hlength
      cases more with
      | nil => cases hlength
      | cons x more =>
        obtain ⟨rfl, -⟩ := List.cons.inj hs
        exact absurd (List.forall_mem_cons.mp hmore).1 hc

/-- A match of a tag takes the opening of the tag. -/
theorem exists_of_matchAt_tagStart {s : List Char} {place : Place}
    (h : matchAt (tagStart tag) ⟨before, s⟩ = some place) :
  ∃ head, s = '<' :: (head ++ place.rest) ∧ head.map Text.fold = tag.toList.map Text.fold
  := by
  rw [← List.append_nil (tagStart tag)] at h
  obtain ⟨head, rest, rfl, hhead, hword, -⟩ :=
    matchAt_tagStart_append.mp (Option.isSome_of_mem h)
  rw [matchAt_tagStart_append_eq hhead hword] at h
  obtain rfl := Option.some.inj h
  exact ⟨head, rfl, hhead⟩

/-- Nothing but one character is passed over exactly where that character is not. -/
theorem forall_holds_except_iff {c : Char} {s : List Char} :
  (∀ x ∈ s, (CharClass.except c).holds x = true) ↔ c ∉ s
  := by
  simp only [CharClass.holds, bne_iff_ne]
  constructor
  · intro h hmem
    exact h c hmem rfl
  · rintro h x hx rfl
    exact h hx

/-- A match of a tag with a text stays in its segment, and takes all that stands before the last
place of the text. -/
theorem exists_of_matchAt_tagWith (hapart : Apart tag text) {s : List Char} {place : Place}
    (h : matchAt (tagWith tag text) ⟨before, s⟩ = some place) :
  ∃ head taken part, s = '<' :: (head ++ (taken ++ (part ++ place.rest)))
    ∧ head.map Text.fold = tag.toList.map Text.fold
    ∧ Text.atBoundary ('<' :: head).getLast? (taken ++ (part ++ place.rest)) = true
    ∧ part.map Text.fold = text.toList.map Text.fold
    ∧ '>' ∉ head ++ (taken ++ part) ∧ ¬Holds text (tagRest place.rest)
  := by
  rw [tagWith, List.append_assoc] at h
  obtain ⟨head, rest, rfl, hhead, hword, -⟩ :=
    matchAt_tagStart_append.mp (Option.isSome_of_mem h)
  rw [matchAt_tagStart_append_eq hhead hword, withinTag, List.singleton_append, matchAt] at h
  obtain ⟨taken, left, hrest, htaken, hnext, hmost⟩ := exists_of_manyThen_eq_some h
  obtain rfl : rest = taken ++ left := hrest
  rw [← List.append_nil (Pattern.text text)] at hnext
  obtain ⟨part, left, rfl, hpart, -⟩ :=
    matchAt_text_append.mp (Option.isSome_of_mem hnext)
  rw [Pattern.text, matchAt_text_append_eq hpart] at hnext
  obtain rfl := Option.some.inj hnext
  have hheadClosed : '>' ∉ head :=
    not_mem_of_map_fold_eq hhead rfl (by decide) hapart.tag_closed
  have htakenClosed : '>' ∉ taken := forall_holds_except_iff.mp htaken
  have hpartClosed : '>' ∉ part :=
    not_mem_of_map_fold_eq hpart rfl (by decide) hapart.text_closed
  refine ⟨head, taken, part, rfl, hhead, ?_, hpart, ?_, ?_⟩
  · rw [← Option.or_none (o := List.getLast? _), getLast?_cons_or]
    apply hword
  · simp [hheadClosed, htakenClosed, hpartClosed]
  -- If the text stood once more in the segment, the repetition would have gone further.
  rintro ⟨part', ⟨x, y, htag⟩, hpart'⟩
  change x ++ part' ++ y = tagRest left at htag
  obtain ⟨z, hz⟩ : tagRest left <+: left := List.takeWhile_prefix _
  have hleft : left = x ++ (part' ++ (y ++ z)) := by
    apply hz.symm.trans
    rw [← htag]
    simp
  have hxClosed : '>' ∉ x := by
    intro hmem
    have htail : '>' ∈ tagRest left := by
      rw [← htag]
      simp [hmem]
    exact ne_of_mem_tagRest htail rfl
  have hfurther : taken ++ (part ++ left) = taken ++ part ++ x ++ (part' ++ (y ++ z)) := by
    conv => lhs; rw [hleft]
    simp
  have hlength : taken.length < (taken ++ part ++ x).length := by
    obtain ⟨c, rest, htext, -⟩ := hapart.begins
    have := congrArg List.length hpart
    simp only [List.length_map, htext, List.length_cons] at this
    simp only [List.length_append]
    omega
  have hnone := hmost _ _ hfurther
    (forall_holds_except_iff.mpr (by simp [htakenClosed, hpartClosed, hxClosed])) hlength
  rw [← List.append_nil (Pattern.text text), Pattern.text, matchAt_text_append_eq hpart'] at hnone
  cases hnone

end Pattern

/-! ### Matches in a segment -/

section

variable {s tail : List Char} {before : Option Char}

theorem matchAt_tagStart_iff :
  (Pattern.matchAt (tagStart tag) ⟨before, s⟩).isSome = true ↔ Opens tag s
  := by
  rw [← List.append_nil (tagStart tag), Pattern.matchAt_tagStart_append]
  simp only [Opens, Pattern.matchAt, Option.isSome_some, and_true]
  simp only [← Pattern.getLast?_cons_or '<' _ none, Option.or_none]

/-- A pattern for a tag with a text matches in a segment where the tag opens and the text stands
later in the segment. -/
theorem matchAt_tagWith_iff (hapart : Apart tag text) (hs : '>' ∉ s) (htail : Closes tail) :
  (Pattern.matchAt (tagWith tag text) ⟨before, s ++ tail⟩).isSome = true
    ↔ Opens tag s ∧ Holds text s.tail
  := by
  constructor
  · intro h
    obtain ⟨place, h⟩ := Option.isSome_iff_exists.mp h
    obtain ⟨head, taken, part, heq, hhead, hword, hpart, hclosed, -⟩ :=
      Pattern.exists_of_matchAt_tagWith hapart h
    obtain ⟨w, rfl, hrest⟩ := htail.exists_of_append_eq
      (a := '<' :: (head ++ (taken ++ part))) (by simpa using hclosed) (by simpa using heq)
    rw [hrest, ← List.append_assoc, ← List.append_assoc, htail.atBoundary_append] at hword
    constructor
    · exact ⟨head, taken ++ part ++ w, by simp, hhead, hword⟩
    · exact ⟨part, ⟨head ++ taken, w, by simp⟩, hpart⟩
  · rintro ⟨⟨head, rest, rfl, hhead, hword⟩, hholds⟩
    rw [List.tail_cons] at hholds
    have hrest : '>' ∉ rest := by
      intro hmem
      exact hs (List.mem_cons_of_mem _ (List.mem_append_right _ hmem))
    have hmatch : (Pattern.matchAt (tagWith tag text)
        ⟨before, '<' :: (head ++ (rest ++ tail))⟩).isSome = true := by
      apply Pattern.matchAt_tagWith_of_mentions hhead
      · rw [htail.atBoundary_append, ← Pattern.getLast?_cons_or '<' head none, Option.or_none]
        apply hword
      · rw [htail.tagRest_append hrest]
        exact mentions_iff.mpr (hapart.holds_of_append hhead hholds)
    simpa using hmatch

end

end AccessAudit.Rule
