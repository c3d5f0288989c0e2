import AccessAudit.Proofs.Markup.Headings
import AccessAudit.Rule.Structural
import Mathlib.Data.List.Forall2

/-!
# Findings on headings

The rule on headings has one finding for each fault of a page with headings, in the order of the
faults, and each finding names lines of headings.  A page with headings but without findings has one
`h1` and no gap: a heading is at most one level deeper than the heading right before it, so no level
can be reached before the levels above it.
-/

namespace AccessAudit.Rule

open Std Markup

variable {page : Page}

/-! ### Findings and faults -/

theorem findings_of_no_heading (d : Document) (h : page.headings = []) :
  headingStructure.findings d page = []
  := by
  simp [headingStructure, h]

theorem findings_eq_map (d : Document) (h : page.headings ≠ []) :
  headingStructure.findings d page
    = (headingReport page.elements).issues.map
        (headingFinding d (firstLine (page.headings.map Element.line)))
  := by
  rw [← headingReport_eq_of_outline_eq page.outline_headings]
  simp [headingStructure, h]

/-! ### Gaps -/

/-- Every level from that of the first heading on has been met before a heading is deeper. -/
def Gapless (headings : List Heading) : Prop :=
  ∀ first ∈ headings.head?, ∀ before h after, headings = before ++ h :: after →
    ∀ level, first.level ≤ level → level < h.level → ∃ g ∈ before, g.level = level

/-- A climb by single levels meets all levels on its way. -/
theorem exists_level_eq {first h : Heading} {before after : List Heading}
    (hchain : (first :: (before ++ h :: after)).IsChain fun a b => b.level ≤ a.level + 1)
    {level : Nat} (hfirst : first.level ≤ level) (hlevel : level < h.level) :
  ∃ g ∈ first :: before, g.level = level
  := by
  induction before generalizing first with
  | nil =>
    have hnext := (List.isChain_cons_cons.mp hchain).1
    exact ⟨first, List.mem_cons_self, by omega⟩
  | cons b before ih =>
    obtain ⟨hnext, hrest⟩ := List.isChain_cons_cons.mp hchain
    by_cases heq : first.level = level
    · exact ⟨first, List.mem_cons_self, heq⟩
    -- The level is not yet met, so the next heading is not deeper than it either.
    · obtain ⟨g, hg, hglevel⟩ := ih hrest (by omega)
      exact ⟨g, List.mem_cons_of_mem first hg, hglevel⟩

/-- Headings that are never more than one level deeper than the one before them leave no gap. -/
theorem gapless_of_isChain {headings : List Heading}
    (hchain : headings.IsChain fun a b => b.level ≤ a.level + 1) :
  Gapless headings
  := by
  rintro first hfirst before h after rfl level hlow hhigh
  cases before with
  | nil =>
    obtain rfl : h = first := by simpa using hfirst
    omega
  | cons b before =>
    obtain rfl : b = first := by simpa using hfirst
    apply exists_level_eq hchain hlow hhigh

/-- Headings that begin with an `h1` and leave no gap use the levels from 1 to some level. -/
theorem Gapless.levels {headings : List Heading} (hgapless : Gapless headings)
    (hpos : ∀ h ∈ headings, 1 ≤ h.level) {first : Heading} (hfirst : headings.head? = some first)
    (htop : first.level = 1) :
  ∃ m, ∀ level, (∃ h ∈ headings, h.level = level) ↔ 1 ≤ level ∧ level ≤ m
  := by
  have hmem : first ∈ headings := List.mem_of_mem_head? hfirst
  obtain ⟨m, hm⟩ : ∃ m, (headings.map Heading.level).max? = some m := by
    apply Option.isSome_iff_exists.mp
    rw [List.isSome_max?_iff]
    apply List.ne_nil_of_mem (List.mem_map_of_mem hmem)
  obtain ⟨hdeepest, hle⟩ := List.max?_eq_some_iff.mp hm
  obtain ⟨deepest, hmem, rfl⟩ := List.mem_map.mp hdeepest
  refine ⟨deepest.level, fun level => ⟨?_, ?_⟩⟩
  · rintro ⟨h, hh, rfl⟩
    exact ⟨hpos h hh, hle _ (List.mem_map_of_mem hh)⟩
  · rintro ⟨hlow, hhigh⟩
    cases Nat.lt_or_eq_of_le hhigh with
    | inl hlt =>
      obtain ⟨before, after, rfl⟩ := List.append_of_mem hmem
      obtain ⟨g, hg, hlevel⟩ :=
        hgapless first hfirst before deepest after rfl level (by omega) hlt
      exact ⟨g, List.mem_append_left _ hg, hlevel⟩
    | inr heq => exact ⟨deepest, hmem, heq.symm⟩

/-- A page with headings on which nothing is found has exactly one `h1`.  In the order of their
lines its headings leave no gap, and if the `h1` is the first of them, the page uses the levels from
1 to some level. -/
theorem gapless_of_findings_eq_nil {d : Document} {page : Page}
    (hheading : ∃ e ∈ page.elements, e.heading?.isSome = true)
    (hnone : headingStructure.findings d page = []) {sorted : List Heading}
    (hsorted : StableSort (compareOn Heading.line) (page.elements.filterMap Element.heading?)
      sorted) :
  page.elements.countP (fun e => e.headingLevel? = some 1) = 1
    ∧ Gapless sorted
    ∧ (sorted.head?.map Heading.level = some 1 →
        ∃ m, ∀ level, (∃ e ∈ page.elements, e.headingLevel? = some level) ↔ 1 ≤ level ∧ level ≤ m)
  := by
  obtain rfl := hsorted.unique (stableSort_outline page.elements)
  have hpage : page.headings ≠ [] := Page.exists_heading_iff.mp hheading
  rw [findings_eq_map d hpage, List.map_eq_nil_iff] at hnone
  have hvalid : (headingReport page.elements).valid = true := List.isEmpty_iff.mpr hnone
  obtain ⟨hcount, hchain⟩ := (describes_headingReport page.elements).valid.mp hvalid
  have hgapless := gapless_of_isChain hchain
  refine ⟨(countP_outline _).symm.trans hcount, hgapless, ?_⟩
  intro htop
  obtain ⟨first, hfirst, htop⟩ := Option.map_eq_some_iff.mp htop
  obtain ⟨m, hm⟩ := hgapless.levels (fun h => pos_level_of_mem_outline) hfirst htop
  refine ⟨m, fun level => ?_⟩
  rw [← exists_level_outline_iff, hm]

/-- Headings `h1`, `h2`, `h3`, `h2`, two of them on one line, and a paragraph. -/
theorem gapless_of_findings_eq_nil_four_headings :
  let page : Page := ⟨[⟨"H1", 1, [], true, false⟩, ⟨"h2", 3, [], true, false⟩,
    ⟨"h3", 3, [], true, false⟩, ⟨"p", 8, [], true, false⟩, ⟨"h2", 9, [], true, false⟩], []⟩
  headingStructure.findings (.of "." "page.tsx" "") page = []
    ∧ page.elements.countP (fun e => e.headingLevel? = some 1) = 1
    ∧ Gapless [⟨1, 1⟩, ⟨2, 3⟩, ⟨3, 3⟩, ⟨2, 9⟩]
    ∧ ∃ m, ∀ level, (∃ e ∈ page.elements, e.headingLevel? = some level) ↔ 1 ≤ level ∧ level ≤ m
  := by
  intro page
  have houtline : outline page.elements = [⟨1, 1⟩, ⟨2, 3⟩, ⟨3, 3⟩, ⟨2, 9⟩] :=
    outline_of_pairwise (by decide)
  have hsorted := stableSort_outline page.elements
  rw [houtline] at hsorted
  have hissues : (headingReport page.elements).issues = [] := by
    rw [headingReport, headingIssues, houtline]
    decide
  have hheading : ∃ e ∈ page.elements, e.heading?.isSome = true := ⟨_, List.mem_cons_self, rfl⟩
  have hnone : headingStructure.findings (.of "." "page.tsx" "") page = [] := by
    rw [findings_eq_map _ (Page.exists_heading_iff.mp hheading), hissues, List.map_nil]
  obtain ⟨hcount, hgapless, hlevels⟩ := gapless_of_findings_eq_nil hheading hnone hsorted
  exact ⟨hnone, hcount, hgapless, hlevels rfl⟩

/-! ### Places -/

/-- The first line of some elements is the least of their lines. -/
theorem firstLine_isLeast {elements : List Element} (h : elements ≠ []) :
  (∃ e ∈ elements, e.line = firstLine (elements.map Element.line))
    ∧ ∀ e ∈ elements, firstLine (elements.map Element.line) ≤ e.line
  := by
  have hlines : elements.map Element.line ≠ [] := fun hnil => h (List.map_eq_nil_iff.mp hnil)
  obtain ⟨line, hline⟩ := Option.isSome_iff_exists.mp (List.isSome_min?_iff.mpr hlines)
  obtain ⟨hmem, hle⟩ := List.min?_eq_some_iff.mp hline
  rw [firstLine, hline, Option.getD_some]
  exact ⟨List.mem_map.mp hmem, fun e he => hle _ (List.mem_map_of_mem he)⟩

/-- The line of one of the headings of a page. -/
def IsHeadingLine (page : Page) (line : Nat) : Prop :=
  ∃ e ∈ page.elements, e.heading?.isSome = true ∧ e.line = line

theorem isHeadingLine_of_mem_outline {h : Heading} (hh : h ∈ outline page.elements) :
  IsHeadingLine page h.line
  := by
  obtain ⟨e, he, hheading⟩ := mem_outline_iff.mp hh
  refine ⟨e, he, ?_, (Element.heading?_eq_some_iff.mp hheading).1⟩
  rw [hheading, Option.isSome_some]

theorem isHeadingLine_iff {line : Nat} :
  IsHeadingLine page line ↔ ∃ e ∈ page.headings, e.line = line
  := by
  simp [Page.headings, IsHeadingLine, Element.heading?, and_assoc]

theorem isHeadingLine_of_mem_topLines {line : Nat}
    (hline : line ∈ topLines (outline page.elements)) :
  IsHeadingLine page line
  := by
  obtain ⟨h, hh, rfl⟩ := List.mem_map.mp hline
  apply isHeadingLine_of_mem_outline (List.mem_filter.mp hh).1

/-- A finding that reports a fault in the headings of a page. -/
structure ReportsIssue (d : Document) (page : Page) (issue : HeadingIssue) (f : Finding) :
    Prop where
  rule : f.rule = headingStructure.id
  severity : f.severity = issue.severity
  message : f.message = issue.message
  file : f.location.file = d.file
  line : IsHeadingLine page f.location.line
  missing : issue.kind = .missingTop → ∀ line, IsHeadingLine page line → f.location.line ≤ line
  /-- If there are several, its line and those of its further places are the lines of all `h1`, in
  increasing order. -/
  several : issue.kind = .severalTop →
    let lines := f.location.line :: f.labels.map fun label => label.location.line
    lines.Pairwise (· ≤ ·)
      ∧ lines.Perm ((page.elements.filter fun e => e.headingLevel? = some 1).map Element.line)
  labels : f.labels ≠ [] → issue.kind = .severalTop

/-- The finding that is made of a fault reports it. -/
theorem reportsIssue_headingFinding (d : Document) (hpage : page.headings ≠ [])
    {issue : HeadingIssue} (hissue : issue ∈ headingIssues page.elements) :
  ReportsIssue d page issue (headingFinding d (firstLine (page.headings.map Element.line)) issue)
  := by
  obtain ⟨hfirst, hleast⟩ := firstLine_isLeast hpage
  obtain ⟨kind, message, severity, lines⟩ := issue
  obtain ⟨rfl, rfl⟩ | ⟨rfl, hne, hlines⟩ | ⟨rfl, h, hh, rfl⟩ := lines_of_mem_headingIssues hissue
  · refine ⟨rfl, rfl, rfl, rfl, isHeadingLine_iff.mpr hfirst, ?_, nofun, fun h => absurd rfl h⟩
    intro _ line hline
    obtain ⟨e, he, rfl⟩ := isHeadingLine_iff.mp hline
    apply hleast e he
  · obtain ⟨line, others, rfl⟩ := List.exists_cons_of_ne_nil hne
    change line :: others = _ at hlines
    -- The finding is on the first of the lines, and its further places are on the others.
    have hplaces : (others.map fun line => (⟨d.location line 0, "another h1"⟩ : Label)).map
        (fun label => label.location.line) = others := by
      rw [List.map_map]
      apply List.map_id
    refine ⟨rfl, rfl, rfl, rfl, ?_, nofun, fun _ => ?_, fun _ => rfl⟩
    · apply isHeadingLine_of_mem_topLines
      rw [← hlines]
      apply List.mem_cons_self
    · change (line :: (others.map _).map _).Pairwise _ ∧ (line :: (others.map _).map _).Perm _
      rw [hplaces, hlines]
      exact ⟨pairwise_topLines_outline _, perm_topLines_outline _⟩
  · exact ⟨rfl, rfl, rfl, rfl, isHeadingLine_of_mem_outline hh, nofun, nofun,
      fun h => absurd rfl h⟩

/-- The rule on headings finds one thing for each fault, in the order of the faults, and nothing on a
page without headings.  Each finding reports its fault at lines of headings. -/
theorem reportsIssue_findings (d : Document) (page : Page) :
  ((∃ e ∈ page.elements, e.heading?.isSome = true) →
      List.Forall₂ (ReportsIssue d page) (headingReport page.elements).issues
        (headingStructure.findings d page))
    ∧ ((∀ e ∈ page.elements, e.heading? = none) → headingStructure.findings d page = [])
  := by
  constructor
  · intro hheading
    have hpage : page.headings ≠ [] := Page.exists_heading_iff.mp hheading
    rw [findings_eq_map d hpage, List.forall₂_map_right_iff, List.forall₂_same]
    intro issue hissue
    apply reportsIssue_headingFinding d hpage hissue
  · intro hnone
    apply findings_of_no_heading d (Page.headings_eq_nil_iff.mpr hnone)

/-- Two `h1` and an `h4` after them: the first finding has the second `h1` as a further place.  A
page with only a `div` has no finding. -/
theorem reportsIssue_findings_two_tops :
  let d := Document.of "." "page.tsx" ""
  let page : Page := ⟨[⟨"h1", 2, [], true, false⟩, ⟨"h1", 7, [], true, false⟩,
    ⟨"h4", 9, [], true, false⟩], []⟩
  List.Forall₂ (ReportsIssue d page)
      [⟨.severalTop, "Page has 2 h1 headings, should have exactly one", .high, [2, 7]⟩,
        ⟨.skippedLevel, "Heading level skipped: h4 after h1", .medium, [9]⟩]
      (headingStructure.findings d page)
    ∧ headingStructure.findings d ⟨[⟨"div", 1, [], true, false⟩], []⟩ = []
  := by
  intro d page
  have houtline : outline page.elements = [⟨1, 2⟩, ⟨1, 7⟩, ⟨4, 9⟩] :=
    outline_of_pairwise (by decide)
  have hissues : (headingReport page.elements).issues
      = [⟨.severalTop, "Page has 2 h1 headings, should have exactly one", .high, [2, 7]⟩,
        ⟨.skippedLevel, "Heading level skipped: h4 after h1", .medium, [9]⟩] := by
    rw [headingReport, headingIssues, houtline]
    decide
  have hheading : ∃ e ∈ page.elements, e.heading?.isSome = true := ⟨_, List.mem_cons_self, rfl⟩
  constructor
  · rw [← hissues]
    apply (reportsIssue_findings d page).1 hheading
  · apply (reportsIssue_findings d _).2
    simp only [List.forall_mem_singleton]
    rfl

end AccessAudit.Rule
