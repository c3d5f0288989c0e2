import AccessAudit.Proofs.Rule.FirstMatch
import AccessAudit.Proofs.Rule.Segments
import Mathlib.Order.Nat

/-!
# Checks with excuses

Where the checks with excuses flag a line, said without patterns and searches.  A check for clicks
looks at the first opening of its tag in every segment of the line; a check for labels looks at
every opening of its tag.  Either one flags the least place that nothing excuses, and makes one
finding there.
-/

namespace AccessAudit.Rule

/-! ### Places that are flagged -/

/-- A place of a line, counted in bytes, at which a tag opens for the first time in a segment, where
a text stands later in the segment and no excuse does. -/
def UnexcusedWith (tag text : String) (excuses : List String) (line : List Char) (n : Nat) : Prop :=
  ∃ earlier segment later before after, line.splitOn '>' = earlier ++ segment :: later
    ∧ FirstOpening tag text segment before after
    ∧ n = Text.byteLength (textBefore earlier ++ before)
    ∧ ∀ excuse ∈ excuses, ¬Holds excuse after

/-- A place of a line, counted in bytes, at which a tag opens and no excuse stands before the next
`>`. -/
def Unexcused (tag : String) (excuses : List String) (line : List Char) (n : Nat) : Prop :=
  ∃ before after, line = before ++ after ∧ n = Text.byteLength before ∧ Opens tag after
    ∧ ∀ excuse ∈ excuses, ¬Holds excuse (after.takeWhile (· != '>'))

variable {check : LineCheck} {tag text : String} {line : List Char} {n : Nat}

theorem LineCheck.excused_eq_false_iff {rest : List Char} :
  check.excused rest = false ↔ ∀ excuse ∈ check.excuses, ¬Holds excuse (tagRest rest)
  := by
  rw [excused, List.any_eq_false]
  simp only [mentions_iff, Holds]

/-- A check for a tag with a text flags the places that are first in their segments. -/
theorem LineCheck.flags_tagWith_iff (hpattern : check.pattern = tagWith tag text)
    (hapart : Apart tag text) :
  check.Flags line n ↔ UnexcusedWith tag text check.excuses line n
  := by
  simp only [Flags, excused_eq_false_iff, hpattern, Pattern.find]
  refine (exists_mem_findFrom_tagWith_iff hapart
    (Q := fun s => ∀ excuse ∈ check.excuses, ¬Holds excuse s) rfl).trans ?_
  simp only [Nat.zero_add]
  rfl

/-- A check for a tag flags all places at which the tag opens. -/
theorem LineCheck.flags_tagStart_iff (hpattern : check.pattern = tagStart tag)
    (htag : '<' ∉ tag.toList) :
  check.Flags line n ↔ Unexcused tag check.excuses line n
  := by
  simp only [Flags, excused_eq_false_iff, hpattern, mem_find_tagStart_iff htag]
  constructor
  · rintro ⟨after, ⟨before, hline, hn, hopens⟩, hexcuses⟩
    exact ⟨before, after, hline, hn, hopens, hexcuses⟩
  · rintro ⟨before, after, hline, hn, hopens, hexcuses⟩
    exact ⟨after, ⟨before, hline, hn, hopens⟩, hexcuses⟩

/-! ### The least place -/

/-- A check of a rule flags the least place of a line that is flagged at all, and makes one finding
there. -/
structure FlagsLeast (rule : LineRule) (check : LineCheck) (At : List Char → Nat → Prop) :
    Prop where
  some_iff : ∀ line n, check.firstMatch? line = some n ↔ IsLeast {n | At line n} n
  none_iff : ∀ line, check.firstMatch? line = none ↔ ∀ n, ¬At line n
  found_iff : ∀ (d : Document) (number : Nat) (line : List Char), (number, line) ∈ d.numberedLines →
    ∀ n, check.firstMatch? line = some n
      ↔ ∃ f, rule.foundBy check d number = [f] ∧ f.location = d.location number (n + 1)
  not_found_iff : ∀ (d : Document) (number : Nat) (line : List Char),
    (number, line) ∈ d.numberedLines →
      (check.firstMatch? line = none ↔ rule.foundBy check d number = [])

/-- The least place that a check flags determines its first match and its findings. -/
theorem FlagsLeast.of_firstMatch? {rule : LineRule} {At : List Char → Nat → Prop}
    (hcheck : check ∈ rule.checks) (hmessages : (rule.checks.map LineCheck.message).Nodup)
    (hfirst : ∀ line n, check.firstMatch? line = some n ↔ IsLeast {n | At line n} n) :
  FlagsLeast rule check At
  := by
  constructor
  · exact hfirst
  · intro line
    constructor
    · intro hnone n hn
      classical
      have hleast := (hfirst line _).mpr (Nat.isLeast_find ⟨n, hn⟩)
      rw [hnone] at hleast
      cases hleast
    · intro h
      rw [Option.eq_none_iff_forall_ne_some]
      intro n hn
      exact h n ((hfirst line n).mp hn).1
  · intro d number line hline n
    rw [LineRule.foundBy_eq hcheck hmessages hline]
    simp only [Option.toList_eq_singleton_iff]
    exact LineCheck.firstMatch?_eq_some_iff_finding?
  · intro d number line hline
    rw [LineRule.foundBy_eq hcheck hmessages hline, Option.toList_eq_nil_iff, LineCheck.finding?,
      Option.map_eq_none_iff]

/-- What a check flags determines its first match and its findings. -/
theorem FlagsLeast.of_flags_iff {rule : LineRule} {At : List Char → Nat → Prop}
    (hcheck : check ∈ rule.checks) (hmessages : (rule.checks.map LineCheck.message).Nodup)
    (hflags : ∀ line n, check.Flags line n ↔ At line n) :
  FlagsLeast rule check At
  := by
  apply FlagsLeast.of_firstMatch? hcheck hmessages
  intro line n
  simp only [LineCheck.firstMatch?_eq_some_iff, hflags]

/-! ### Checks without excuses -/

/-- A place of a line, counted in bytes, at which a pattern matches, whether or not a search reports
it. -/
def Pattern.MatchesAt (p : Pattern) (line : List Char) (n : Nat) : Prop :=
  ∃ before after, line = before ++ after ∧ n = Text.byteLength before ∧ after ≠ []
    ∧ (p.matchAt ⟨before.getLast?, after⟩).isSome = true

/-- The first match of a check without excuses is the least place at which its pattern matches. -/
theorem LineCheck.firstMatch?_eq_some_iff_matchesAt (hexcuses : check.excuses = []) :
  check.firstMatch? line = some n ↔ IsLeast {n | check.pattern.MatchesAt line n} n
  := by
  have hfirst {n : Nat} (h : IsLeast {n | check.pattern.MatchesAt line n} n) :
      check.firstMatch? line = some n := by
    obtain ⟨⟨before, after, rfl, rfl, hne, hmatch⟩, hleast⟩ := h
    -- A match in the text before the place would lie before the least one.
    have hnone : ∀ u v, before = u ++ v → v ≠ [] →
        check.pattern.matchAt ⟨u.getLast?, v ++ after⟩ = none := by
      rintro u v rfl hv
      rw [← Option.not_isSome_iff_eq_none]
      intro h
      have hle := hleast ⟨u, v ++ after, List.append_assoc u v after, rfl, by simp [hv], h⟩
      obtain ⟨c, v, rfl⟩ := List.exists_cons_of_ne_nil hv
      rw [Text.byteLength_append, Text.byteLength_cons] at hle
      have := c.utf8Size_pos
      omega
    obtain ⟨later, hfind⟩ := Pattern.find_append_of_matchAt hnone hne hmatch
    rw [firstMatch?, hfind, List.find?_cons_of_pos, Option.map_some]
    simp [excused, hexcuses]
  constructor
  · intro h
    obtain ⟨before, after, hline, hne, hn, hmatch⟩ := Pattern.matchAt_of_firstMatch? h
    have hmatches : ∃ n, check.pattern.MatchesAt line n :=
      ⟨n, before, after, hline, hn.symm, hne, hmatch⟩
    classical
    have hleast := Nat.isLeast_find hmatches
    rw [hfirst hleast, Option.some.injEq] at h
    rwa [h] at hleast
  · exact hfirst

/-! ### The catalogue -/

/-- A check of a rule, by its place among the checks, with the tag it looks for and its excuses. -/
structure Watch where
  rule : LineRule
  index : Nat
  tag : String
  excuses : List String

/-- The checks for tags that react to clicks. -/
def clickChecks : List Watch :=
  [⟨semanticHtml, 0, "div", ["role="]⟩,
   ⟨semanticHtml, 1, "span", ["role="]⟩,
   ⟨keyboardNavigation, 1, "div", ["onKeyDown", "onKeyPress"]⟩]

/-- The checks for tags that need a label or a text. -/
def labelChecks : List Watch :=
  [⟨formLabels, 0, "input", ["aria-label", "aria-labelledby", "id="]⟩,
   ⟨formLabels, 2, "select", ["aria-label", "aria-labelledby", "id="]⟩,
   ⟨formLabels, 3, "textarea", ["aria-label", "aria-labelledby", "id="]⟩,
   ⟨altText, 0, "img", ["alt="]⟩]

theorem nodup_messages {w : Watch} (hw : w ∈ clickChecks ++ labelChecks) :
  (w.rule.checks.map LineCheck.message).Nodup
  := by
  have table : ∀ w ∈ clickChecks ++ labelChecks,
      (w.rule.checks.map LineCheck.message).Nodup := by
    decide +kernel
  apply table w hw

/-- The watched checks look for their tags and have their excuses. -/
theorem exists_check_of_mem_clickChecks {w : Watch} (hw : w ∈ clickChecks) :
  ∃ check, w.rule.checks[w.index]? = some check ∧ check.pattern = tagWith w.tag "onClick"
    ∧ check.excuses = w.excuses ∧ Apart w.tag "onClick"
  := by
  simp only [clickChecks, List.mem_cons, List.not_mem_nil, or_false] at hw
  obtain rfl | rfl | rfl := hw
  · exact ⟨_, rfl, rfl, rfl, by decide, by decide, 'o', _, rfl, by decide⟩
  · exact ⟨_, rfl, rfl, rfl, by decide, by decide, 'o', _, rfl, by decide⟩
  · exact ⟨_, rfl, rfl, rfl, by decide, by decide, 'o', _, rfl, by decide⟩

/-- The watched checks look for their tags and have their excuses. -/
theorem exists_check_of_mem_labelChecks {w : Watch} (hw : w ∈ labelChecks) :
  ∃ check, w.rule.checks[w.index]? = some check ∧ check.pattern = tagStart w.tag
    ∧ check.excuses = w.excuses ∧ '<' ∉ w.tag.toList
  := by
  simp only [labelChecks, List.mem_cons, List.not_mem_nil, or_false] at hw
  obtain rfl | rfl | rfl | rfl := hw
  · exact ⟨_, rfl, rfl, rfl, by decide⟩
  · exact ⟨_, rfl, rfl, rfl, by decide⟩
  · exact ⟨_, rfl, rfl, rfl, by decide⟩
  · exact ⟨_, rfl, rfl, rfl, by decide⟩

/-- The checks for clicks flag the least place at which their tag opens for the first time in a
segment of the line, with `onClick` and without an excuse behind it; the checks for labels flag the
least place at which their tag opens without an excuse before the next `>`. -/
theorem flagsLeast_of_watch :
  (∀ w ∈ clickChecks, ∃ check, w.rule.checks[w.index]? = some check
      ∧ FlagsLeast w.rule check (UnexcusedWith w.tag "onClick" w.excuses))
    ∧ ∀ w ∈ labelChecks, ∃ check, w.rule.checks[w.index]? = some check
      ∧ FlagsLeast w.rule check (Unexcused w.tag w.excuses)
  := by
  constructor
  · intro w hw
    obtain ⟨check, hcheck, hpattern, hexcuses, hapart⟩ := exists_check_of_mem_clickChecks hw
    refine ⟨check, hcheck, ?_⟩
    apply FlagsLeast.of_flags_iff (List.mem_of_getElem? hcheck)
      (nodup_messages (List.mem_append_left _ hw))
    intro line n
    rw [← hexcuses]
    exact LineCheck.flags_tagWith_iff hpattern hapart
  · intro w hw
    obtain ⟨check, hcheck, hpattern, hexcuses, htag⟩ := exists_check_of_mem_labelChecks hw
    refine ⟨check, hcheck, ?_⟩
    apply FlagsLeast.of_flags_iff (List.mem_of_getElem? hcheck)
      (nodup_messages (List.mem_append_right _ hw))
    intro line n
    rw [← hexcuses]
    exact LineCheck.flags_tagStart_iff hpattern htag

/-- A line with three segments.  The first opening of the first one is excused and hides a second
one; the third one is written in capital letters and with a kelvin sign. -/
def clickLine : List Char :=
  "<div onKeyDown=\x7bf\x7d <div onClick=\x7bg\x7d><p><DIV onClic\u212a=\x7bh\x7d>".toList

/-- A line with two images, of which the second one has a `>` before its text. -/
def imageLine : List Char :=
  "<img alt=\"a\"><img src=\"b>c\" alt=\"d\">".toList

/-- The third segment of one line and the second image of the other one are flagged. -/
theorem flagsLeast_of_watch_two_lines :
  IsLeast {n | UnexcusedWith "div" "onClick" ["onKeyDown", "onKeyPress"] clickLine n} 39
    ∧ (∃ check ∈ keyboardNavigation.checks, ∃ f,
        keyboardNavigation.foundBy check ⟨"App.tsx", [clickLine]⟩ 1 = [f]
          ∧ f.location = ⟨"App.tsx", 1, 40⟩)
    ∧ IsLeast {n | Unexcused "img" ["alt="] imageLine n} 13
  := by
  obtain ⟨check, hcheck, hclick⟩ := flagsLeast_of_watch.1
    ⟨keyboardNavigation, 1, "div", ["onKeyDown", "onKeyPress"]⟩ (by simp [clickChecks])
  obtain ⟨check', hcheck', himage⟩ := flagsLeast_of_watch.2 ⟨altText, 0, "img", ["alt="]⟩
    (by simp [labelChecks])
  have hmem : check ∈ keyboardNavigation.checks := List.mem_of_getElem? hcheck
  obtain rfl := Option.some.inj hcheck
  obtain rfl := Option.some.inj hcheck'
  refine ⟨(hclick.some_iff clickLine 39).mp (by decide +kernel), ⟨_, hmem, ?_⟩,
    (himage.some_iff imageLine 13).mp (by decide +kernel)⟩
  exact (hclick.found_iff ⟨"App.tsx", [clickLine]⟩ 1 clickLine (by decide +kernel) 39).mp
    (by decide +kernel)

end AccessAudit.Rule
