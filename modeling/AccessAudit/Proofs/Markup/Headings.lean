import AccessAudit.Markup.Headings
import AccessAudit.Proofs.Report.Sorting
import AccessAudit.Proofs.Text.Occurrence
import Mathlib.Data.List.Chain
import Mathlib.Data.List.Nodup

/-!
# Reports on headings

The outline of some elements is the stable sort of their headings by line, where a heading is an
element `h1` to `h6` in letters of either case.  `HeadingReport.Describes` says what a report has to
hold for an outline: how many headings there are, the fault in the number of `h1`, and one fault for
each heading that is too deep for the heading right before it.  The report that is made is the one
that is so described.  Elements that are no headings do not matter to it, nor does the order of the
elements, as long as no two headings share a line.
-/

namespace AccessAudit.Markup

open Std

/-! ### Tags of headings -/

/-- Only `h` and `H` are `h` as small letters. -/
theorem toLower_eq_h_iff {c : Char} :
  c.toLower = 'h' ↔ c = 'h' ∨ c = 'H'
  := by
  constructor
  · intro h
    unfold Char.toLower at h
    split at h
    · rename_i hupper
      have hsum := congrArg (fun c => c.val.toNat) h
      simp only [ge_iff_le, UInt32.le_iff_toNat_le, UInt32.toNat_add, Char.reduceVal,
        UInt32.reduceToNat, UInt32.reduceSub, Char.toNat_val, Nat.reducePow] at hsum hupper
      right
      apply Char.toNat_inj.mp
      change c.toNat = 72
      omega
    · left
      apply h
  · rintro (rfl | rfl) <;> rfl

/-- The digits `1` to `6` write the levels of headings. -/
theorem toList_toString_level {d : Char} (hlow : '1' ≤ d) (hhigh : d ≤ '6') :
  let level := d.toNat - '0'.toNat
  1 ≤ level ∧ level ≤ 6 ∧ (toString level).toList = [d]
  := by
  have hlow : 49 ≤ d.toNat := hlow
  have hhigh : d.toNat ≤ 54 := hhigh
  obtain h | h | h | h | h | h : d.toNat = 49 ∨ d.toNat = 50 ∨ d.toNat = 51 ∨ d.toNat = 52
      ∨ d.toNat = 53 ∨ d.toNat = 54 := by omega
  all_goals
    rw [← Char.ofNat_toNat d, h]
    decide

theorem exists_levelDigit {level : Nat} (hlow : 1 ≤ level) (hhigh : level ≤ 6) :
  ∃ d, (toString level).toList = [d] ∧ d.toLower = d ∧ '1' ≤ d ∧ d ≤ '6'
    ∧ d.toNat - '0'.toNat = level
  := by
  obtain rfl | rfl | rfl | rfl | rfl | rfl : level = 1 ∨ level = 2 ∨ level = 3 ∨ level = 4
      ∨ level = 5 ∨ level = 6 := by omega
  all_goals exact ⟨_, rfl, by decide⟩

/-- A heading has one of the tags `h1` to `h6`, in letters of either case. -/
theorem Element.headingLevel?_eq_some_iff {e : Element} {level : Nat} :
  e.headingLevel? = some level
    ↔ 1 ≤ level ∧ level ≤ 6 ∧ e.hasTag ("h" ++ toString level) = true
  := by
  rw [headingLevel?, hasTag, Text.sameLetters, beq_iff_eq, String.toList_append]
  constructor
  · intro h
    split at h
    · rename_i x d htag
      split at h
      · rename_i hcond
        obtain ⟨hx, hlow, hhigh⟩ := hcond
        cases h
        obtain ⟨hlow, hhigh, hdigit⟩ := toList_toString_level hlow hhigh
        refine ⟨hlow, hhigh, ?_⟩
        rw [htag, hdigit]
        obtain rfl | rfl := hx <;> rfl
      · cases h
    · cases h
  · rintro ⟨hlow, hhigh, htag⟩
    obtain ⟨d, hdigit, hlower, hlow, hhigh, hlevel⟩ := exists_levelDigit hlow hhigh
    rw [hdigit] at htag
    change _ = ['h', d.toLower] at htag
    rw [hlower] at htag
    obtain ⟨x, rest, hcons, hx, hrest⟩ := List.map_eq_cons_iff.mp htag
    obtain ⟨y, rest, rfl, hy, hrest⟩ := List.map_eq_cons_iff.mp hrest
    obtain rfl := List.map_eq_nil_iff.mp hrest
    have hd : d < 'a' := Std.lt_of_le_of_lt hhigh (by decide)
    obtain rfl := Text.eq_of_toLower_eq hy hd
    rw [hcons]
    simp only [toLower_eq_h_iff.mp hx, hlow, hhigh, hlevel, and_self, if_true]

/-- The heading that an element is has its line, and the level of its tag. -/
theorem Element.heading?_eq_some_iff {e : Element} {h : Heading} :
  e.heading? = some h ↔ e.line = h.line ∧ 1 ≤ h.level ∧ h.level ≤ 6
    ∧ e.hasTag ("h" ++ toString h.level) = true
  := by
  rw [← headingLevel?_eq_some_iff, heading?, Option.map_eq_some_iff]
  constructor
  · rintro ⟨level, hlevel, rfl⟩
    exact ⟨rfl, hlevel⟩
  · rintro ⟨hline, hlevel⟩
    refine ⟨h.level, hlevel, ?_⟩
    rw [hline]

/-! ### Outlines -/

variable {elements : List Element}

/-- The outline is the stable sort of the headings by line. -/
theorem stableSort_outline (elements : List Element) :
  StableSort (compareOn Heading.line) (elements.filterMap Element.heading?) (outline elements)
  := by
  have hle : (fun a b : Heading => decide (a.line ≤ b.line))
      = fun a b => (compareOn Heading.line a b).isLE := by
    funext a b
    rw [compareOn, Bool.eq_iff_iff, decide_eq_true_iff, Nat.isLE_compare]
  rw [outline, hle]
  apply StableSort.mergeSort

theorem pairwise_outline (elements : List Element) :
  (outline elements).Pairwise fun a b => a.line ≤ b.line
  := by
  apply (stableSort_outline elements).ordered.imp
  intro a b h
  apply Nat.isLE_compare.mp h

/-- Where lines do not decrease, headings stay in the order of the elements. -/
theorem outline_of_pairwise (h : elements.Pairwise fun a b => a.line ≤ b.line) :
  outline elements = elements.filterMap Element.heading?
  := by
  rw [outline]
  apply List.mergeSort_of_pairwise
  rw [List.pairwise_filterMap]
  apply h.imp
  intro a b hab x hx y hy
  obtain ⟨_, -, rfl⟩ := Option.map_eq_some_iff.mp hx
  obtain ⟨_, -, rfl⟩ := Option.map_eq_some_iff.mp hy
  apply decide_eq_true hab

theorem mem_outline_iff {h : Heading} :
  h ∈ outline elements ↔ ∃ e ∈ elements, e.heading? = some h
  := by
  rw [(stableSort_outline elements).perm.mem_iff, List.mem_filterMap]

theorem line_of_mem_outline {h : Heading} (hh : h ∈ outline elements) :
  ∃ e ∈ elements, e.line = h.line
  := by
  obtain ⟨e, he, hheading⟩ := mem_outline_iff.mp hh
  exact ⟨e, he, (Element.heading?_eq_some_iff.mp hheading).1⟩

theorem pos_level_of_mem_outline {h : Heading} (hh : h ∈ outline elements) :
  0 < h.level
  := by
  obtain ⟨e, -, hheading⟩ := mem_outline_iff.mp hh
  apply (Element.heading?_eq_some_iff.mp hheading).2.1

/-- The levels of an outline are those of the elements. -/
theorem exists_level_outline_iff {level : Nat} :
  (∃ h ∈ outline elements, h.level = level) ↔ ∃ e ∈ elements, e.headingLevel? = some level
  := by
  constructor
  · rintro ⟨h, hh, rfl⟩
    obtain ⟨e, he, hheading⟩ := mem_outline_iff.mp hh
    obtain ⟨level, hlevel, rfl⟩ := Option.map_eq_some_iff.mp hheading
    exact ⟨e, he, hlevel⟩
  · rintro ⟨e, he, hlevel⟩
    refine ⟨⟨level, e.line⟩, mem_outline_iff.mpr ⟨e, he, ?_⟩, rfl⟩
    rw [Element.heading?, hlevel, Option.map_some]

/-- The outline depends only on the elements that are headings. -/
theorem outline_filter (elements : List Element) :
  outline (elements.filter fun e => e.heading?.isSome) = outline elements
  := by
  have hsame : (fun e : Element => if e.heading?.isSome = true then e.heading? else none)
      = Element.heading? := by
    funext e
    cases e.heading? <;> rfl
  rw [outline, List.filterMap_filter, hsame, outline]

@[simp]
theorem Page.outline_headings (page : Page) :
  outline page.headings = outline page.elements
  := by
  rw [← outline_filter page.elements]
  simp only [Page.headings, Element.heading?, Option.isSome_map]

theorem Page.headings_eq_nil_iff {page : Page} :
  page.headings = [] ↔ ∀ e ∈ page.elements, e.heading? = none
  := by
  simp [Page.headings, Element.heading?]

theorem Page.exists_heading_iff {page : Page} :
  (∃ e ∈ page.elements, e.heading?.isSome = true) ↔ page.headings ≠ []
  := by
  rw [ne_eq, Page.headings_eq_nil_iff]
  simp [Option.isSome_iff_ne_none]

theorem length_topLines (headings : List Heading) :
  (topLines headings).length = headings.countP (·.level = 1)
  := by
  rw [topLines, List.length_map, List.countP_eq_length_filter]
  rfl

/-- The lines of the `h1` headings among some elements are those of the `h1` elements. -/
theorem topLines_filterMap_heading? (elements : List Element) :
  topLines (elements.filterMap Element.heading?)
    = (elements.filter fun e => e.headingLevel? = some 1).map Element.line
  := by
  induction elements with
  | nil => rfl
  | cons e elements ih =>
    unfold topLines at ih ⊢
    cases hlevel : e.headingLevel? with
    | none => simp [Element.heading?, hlevel, ih]
    | some level =>
      by_cases htop : level = 1
      · simp [Element.heading?, hlevel, htop, ih]
      · simp [Element.heading?, hlevel, htop, ih]

theorem perm_topLines_outline (elements : List Element) :
  (topLines (outline elements)).Perm
    ((elements.filter fun e => e.headingLevel? = some 1).map Element.line)
  := by
  rw [← topLines_filterMap_heading?]
  apply ((stableSort_outline elements).perm.filter _).map

theorem countP_outline (elements : List Element) :
  (outline elements).countP (·.level = 1) = elements.countP fun e => e.headingLevel? = some 1
  := by
  rw [← length_topLines, (perm_topLines_outline elements).length_eq, List.length_map,
    List.countP_eq_length_filter]

theorem pairwise_topLines_outline (elements : List Element) :
  (topLines (outline elements)).Pairwise (· ≤ ·)
  := by
  rw [topLines, List.pairwise_map]
  apply (pairwise_outline elements).filter

/-- Elements in another order have the same outline, if no two headings share a line. -/
theorem outline_eq_of_perm {shuffled : List Element} (hperm : shuffled.Perm elements)
    (hlines : ((elements.filterMap Element.heading?).map Heading.line).Nodup) :
  outline shuffled = outline elements
  := by
  have hheadings := hperm.filterMap Element.heading?
  have hsorted := (stableSort_outline shuffled).perm
  apply List.Perm.eq_of_pairwise _ (pairwise_outline shuffled) (pairwise_outline elements)
    ((hsorted.trans hheadings).trans (stableSort_outline elements).perm.symm)
  intro a b ha hb hab hba
  have ha := hheadings.mem_iff.mp (hsorted.mem_iff.mp ha)
  have hb := (stableSort_outline elements).perm.mem_iff.mp hb
  apply List.inj_on_of_nodup_map hlines ha hb (Nat.le_antisymm hab hba)

/-! ### Faults -/

/-- The fault in the number of `h1` among some headings. -/
inductive TopFaults (headings : List Heading) : List HeadingIssue → Prop where
  | missing (count : headings.countP (·.level = 1) = 0) :
    TopFaults headings [⟨.missingTop, "Page should have exactly one h1 heading", .high, []⟩]
  | single (count : headings.countP (·.level = 1) = 1) : TopFaults headings []
  | several (count : 1 < headings.countP (·.level = 1)) :
    TopFaults headings [⟨.severalTop,
      "Page has " ++ toString (headings.countP (·.level = 1))
        ++ " h1 headings, should have exactly one",
      .high, (headings.filter (·.level = 1)).map Heading.line⟩]

/-- The faults between neighbours: one for each heading that is more than one level deeper than the
heading right before it, in the order of the headings. -/
inductive SkipFaults : List Heading → List HeadingIssue → Prop where
  | nil : SkipFaults [] []
  | single (h : Heading) : SkipFaults [h] []
  | step {a b : Heading} {rest : List Heading} {issues : List HeadingIssue}
    (next : b.level ≤ a.level + 1) (others : SkipFaults (b :: rest) issues) :
    SkipFaults (a :: b :: rest) issues
  | jump {a b : Heading} {rest : List Heading} {issues : List HeadingIssue}
    (skips : a.level + 1 < b.level) (others : SkipFaults (b :: rest) issues) :
    SkipFaults (a :: b :: rest) (⟨.skippedLevel,
      "Heading level skipped: h" ++ toString b.level ++ " after h" ++ toString a.level,
      .medium, [b.line]⟩ :: issues)

variable {headings : List Heading} {issues issues' : List HeadingIssue}

namespace TopFaults

theorem unique (h : TopFaults headings issues) (h' : TopFaults headings issues') :
  issues = issues'
  := by
  cases h <;> cases h' <;> first | rfl | omega

/-- Without a fault there is exactly one `h1`. -/
theorem eq_nil_iff (h : TopFaults headings issues) :
  issues = [] ↔ headings.countP (·.level = 1) = 1
  := by
  cases h with
  | missing count => simp [count]
  | single count => simp [count]
  | several count =>
    have hne : headings.countP (·.level = 1) ≠ 1 := by omega
    simp [hne]

/-- A fault in the number of `h1` names no line, or the lines of several `h1`. -/
theorem lines_of_mem (h : TopFaults headings issues) {issue : HeadingIssue} (hi : issue ∈ issues) :
  issue.kind = .missingTop ∧ issue.lines = []
    ∨ issue.kind = .severalTop ∧ issue.lines ≠ [] ∧ issue.lines = topLines headings
  := by
  cases h with
  | missing =>
    rw [List.mem_singleton.mp hi]
    exact .inl ⟨rfl, rfl⟩
  | single => cases hi
  | several count =>
    rw [List.mem_singleton.mp hi]
    refine .inr ⟨rfl, ?_, rfl⟩
    apply List.ne_nil_of_length_pos
    rw [List.length_map, ← List.countP_eq_length_filter]
    omega

end TopFaults

namespace SkipFaults

/-- Neighbours have one list of faults. -/
theorem unique (h : SkipFaults headings issues) (h' : SkipFaults headings issues') :
  issues = issues'
  := by
  induction h generalizing issues' with
  | nil =>
    cases h'
    rfl
  | single =>
    cases h'
    rfl
  | step next _ ih =>
    cases h' with
    | step _ others => apply ih others
    | jump skips => omega
  | jump skips _ ih =>
    cases h' with
    | step next => omega
    | jump _ others => rw [ih others]

/-- Without a fault no heading is more than one level deeper than the one before it. -/
theorem eq_nil_iff (h : SkipFaults headings issues) :
  issues = [] ↔ headings.IsChain fun a b => b.level ≤ a.level + 1
  := by
  induction h with
  | nil => simp
  | single => simp
  | step next _ ih =>
    rw [List.isChain_cons_cons, ih]
    simp [next]
  | jump skips _ _ =>
    rw [List.isChain_cons_cons]
    simp only [List.cons_ne_nil, false_iff, not_and]
    omega

/-- A fault between neighbours names the line of the deeper heading. -/
theorem lines_of_mem (h : SkipFaults headings issues) {issue : HeadingIssue} (hi : issue ∈ issues) :
  issue.kind = .skippedLevel ∧ ∃ h ∈ headings, issue.lines = [h.line]
  := by
  induction h with
  | nil => cases hi
  | single => cases hi
  | @step a _ _ _ _ _ ih =>
    obtain ⟨hkind, h, hh, hlines⟩ := ih hi
    exact ⟨hkind, h, List.mem_cons_of_mem a hh, hlines⟩
  | @jump a b rest _ _ _ ih =>
    cases hi with
    | head => exact ⟨rfl, b, List.mem_cons_of_mem a List.mem_cons_self, rfl⟩
    | tail _ hi =>
      obtain ⟨hkind, h, hh, hlines⟩ := ih hi
      exact ⟨hkind, h, List.mem_cons_of_mem a hh, hlines⟩

end SkipFaults

/-- The fault in the number of `h1` is found. -/
theorem topFaults_topIssues (headings : List Heading) :
  TopFaults headings (topIssues (topLines headings))
  := by
  have hcount := length_topLines headings
  unfold topIssues
  split
  · rename_i hlines
    rw [hlines] at hcount
    exact .missing hcount.symm
  · rename_i hlines
    rw [hlines] at hcount
    exact .single hcount.symm
  · rename_i hnil hsingle
    rw [hcount]
    apply TopFaults.several
    rw [← hcount]
    rcases hlines : topLines headings with _ | ⟨line, _ | ⟨line', rest⟩⟩
    · exact absurd hlines hnil
    · exact absurd hlines (hsingle line)
    · simp

/-- The faults after a heading are found: what is remembered of it is its level, which is not 0. -/
theorem skipFaults_cons {a : Heading} {rest : List Heading} (hpos : ∀ h ∈ a :: rest, 0 < h.level) :
  SkipFaults (a :: rest) (skippedIssues a.level rest)
  := by
  induction rest generalizing a with
  | nil => exact .single a
  | cons b rest ih =>
    have hothers := ih fun h hh => hpos h (List.mem_cons_of_mem a hh)
    have ha := hpos a List.mem_cons_self
    rw [skippedIssues]
    split
    · rename_i hskips
      exact .jump hskips.2 hothers
    · rename_i hnext
      exact .step (by omega) hothers

/-- The faults between neighbours are found; before the first heading there is none to compare it
with. -/
theorem skipFaults_skippedIssues (hpos : ∀ h ∈ headings, 0 < h.level) :
  SkipFaults headings (skippedIssues 0 headings)
  := by
  cases headings with
  | nil => exact .nil
  | cons a rest =>
    rw [skippedIssues, if_neg fun h => Nat.lt_irrefl 0 h.1]
    apply skipFaults_cons hpos

/-! ### Reports -/

/-- A report that holds what there is to say of an outline. -/
structure HeadingReport.Describes (r : HeadingReport) (headings : List Heading) : Prop where
  headingCount : r.headingCount = headings.length
  topCount : r.topCount = headings.countP (·.level = 1)
  issues : ∃ top skipped, TopFaults headings top ∧ SkipFaults headings skipped
    ∧ r.issues = top ++ skipped
  valid : r.valid = true ↔ headings.countP (·.level = 1) = 1
    ∧ headings.IsChain fun a b => b.level ≤ a.level + 1

/-- The report on some elements is as their outline describes it. -/
theorem describes_headingReport (elements : List Element) :
  (headingReport elements).Describes (outline elements)
  := by
  have htop := topFaults_topIssues (outline elements)
  have hskipped := skipFaults_skippedIssues fun h => @pos_level_of_mem_outline elements h
  refine ⟨rfl, length_topLines _, ⟨_, _, htop, hskipped, rfl⟩, ?_⟩
  rw [← htop.eq_nil_iff, ← hskipped.eq_nil_iff, ← List.append_eq_nil_iff, ← List.isEmpty_iff]
  rfl

/-- What lines the faults in the headings name. -/
theorem lines_of_mem_headingIssues {issue : HeadingIssue}
    (hissue : issue ∈ headingIssues elements) :
  issue.kind = .missingTop ∧ issue.lines = []
    ∨ issue.kind = .severalTop ∧ issue.lines ≠ [] ∧ issue.lines = topLines (outline elements)
    ∨ issue.kind = .skippedLevel ∧ ∃ h ∈ outline elements, issue.lines = [h.line]
  := by
  obtain ⟨top, skipped, htop, hskipped, hissues⟩ := (describes_headingReport elements).issues
  change headingIssues elements = _ at hissues
  rw [hissues, List.mem_append] at hissue
  cases hissue with
  | inl h =>
    obtain h | h := htop.lines_of_mem h
    · exact .inl h
    · exact .inr (.inl h)
  | inr h => exact .inr (.inr (hskipped.lines_of_mem h))

/-- An outline has one report as it is described. -/
theorem HeadingReport.Describes.unique {r r' : HeadingReport} (h : r.Describes headings)
    (h' : r'.Describes headings) :
  r = r'
  := by
  obtain ⟨valid, issues, headingCount, topCount⟩ := r
  obtain ⟨valid', issues', headingCount', topCount'⟩ := r'
  obtain ⟨top, skipped, htop, hskipped, hissues⟩ := h.issues
  obtain ⟨top', skipped', htop', hskipped', hissues'⟩ := h'.issues
  obtain rfl : valid = valid' := Bool.eq_iff_iff.mpr (h.valid.trans h'.valid.symm)
  obtain rfl : headingCount = headingCount' := h.headingCount.trans h'.headingCount.symm
  obtain rfl : topCount = topCount' := h.topCount.trans h'.topCount.symm
  obtain rfl := htop.unique htop'
  obtain rfl := hskipped.unique hskipped'
  obtain rfl : issues = issues' := hissues.trans hissues'.symm
  rfl

/-- The lines of a fault in the headings are lines of headings. -/
theorem line_of_mem_headingIssues {issue : HeadingIssue} (hissue : issue ∈ headingIssues elements)
    {line : Nat} (hline : line ∈ issue.lines) :
  ∃ e ∈ elements, e.line = line
  := by
  obtain ⟨-, hlines⟩ | ⟨-, -, hlines⟩ | ⟨-, h, hh, hlines⟩ := lines_of_mem_headingIssues hissue
  · rw [hlines] at hline
    cases hline
  · rw [hlines] at hline
    obtain ⟨h, hh, rfl⟩ := List.mem_map.mp hline
    apply line_of_mem_outline (List.mem_filter.mp hh).1
  · rw [hlines] at hline
    rw [List.mem_singleton.mp hline]
    apply line_of_mem_outline hh

theorem headingReport_eq_of_outline_eq {more : List Element} (h : outline more = outline elements) :
  headingReport more = headingReport elements
  := by
  simp only [headingReport, headingIssues, h]

/-- The outline is the stable sort by line of the elements `h1` to `h6`, and the report is exactly
the one that describes it.  The same headings in the same order have the same report, whatever other
elements stand between them, and so have the same elements in any order, if no two headings share a
line. -/
theorem headingReport_eq_iff_describes (elements : List Element) :
  (∀ (e : Element) h, e.heading? = some h ↔ e.line = h.line ∧ 1 ≤ h.level ∧ h.level ≤ 6
      ∧ e.hasTag ("h" ++ toString h.level) = true)
    ∧ StableSort (compareOn Heading.line) (elements.filterMap Element.heading?) (outline elements)
    ∧ (∀ r, headingReport elements = r ↔ r.Describes (outline elements))
    ∧ (∀ more : List Element, more.filter (fun e => e.heading?.isSome)
        = elements.filter (fun e => e.heading?.isSome) →
        headingReport more = headingReport elements)
    ∧ (((elements.filterMap Element.heading?).map Heading.line).Nodup →
        ∀ shuffled, shuffled.Perm elements → headingReport shuffled = headingReport elements)
  := by
  refine ⟨fun e h => Element.heading?_eq_some_iff, stableSort_outline elements, ?_, ?_, ?_⟩
  · intro r
    constructor
    · rintro rfl
      apply describes_headingReport
    · apply (describes_headingReport elements).unique
  · intro more hsame
    apply headingReport_eq_of_outline_eq
    rw [← outline_filter more, hsame, outline_filter]
  · intro hlines shuffled hperm
    apply headingReport_eq_of_outline_eq
    apply outline_eq_of_perm hperm hlines

/-- Headings from the last to the first, one of them in capitals: the order of lines is `h1`, `h3`,
`h2`, and one level is skipped.  Neither another order of the elements nor a `div` changes the
report. -/
theorem headingReport_three_headings :
  let elements : List Element :=
    [⟨"h2", 9, [], true, false⟩, ⟨"h3", 5, [], true, false⟩, ⟨"H1", 1, [], true, false⟩]
  ((elements.filterMap Element.heading?).map Heading.line).Nodup
    ∧ headingReport elements.reverse = headingReport elements
    ∧ headingReport (⟨"div", 2, [], true, false⟩ :: elements) = headingReport elements
    ∧ HeadingReport.Describes
        ⟨false, [⟨.skippedLevel, "Heading level skipped: h3 after h1", .medium, [5]⟩], 3, 1⟩
        (outline elements)
  := by
  intro elements
  obtain ⟨-, -, hreport, hmore, hshuffled⟩ := headingReport_eq_iff_describes elements
  have hlines : ((elements.filterMap Element.heading?).map Heading.line).Nodup := by decide
  have houtline : outline elements = [⟨1, 1⟩, ⟨3, 5⟩, ⟨2, 9⟩] := by
    rw [← outline_eq_of_perm elements.reverse_perm hlines, outline_of_pairwise (by decide)]
    rfl
  refine ⟨hlines, hshuffled hlines _ elements.reverse_perm, hmore _ rfl, (hreport _).mp ?_⟩
  rw [headingReport, headingIssues, houtline]
  decide

end AccessAudit.Markup
