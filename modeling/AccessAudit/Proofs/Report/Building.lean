import AccessAudit.Proofs.Report.Sorting
import Mathlib.Data.List.Basic
import Mathlib.Data.List.Induction

/-!
# Building reports

A report is built by adding findings, one or several at a time, and may be sorted at any time.
`Report.Gathers` says what every step keeps: the buckets hold the findings that were added, parted by
their severities, and findings of one line of one file stand in the order in which they were added.
So sorting on the way does not show in a report that is sorted at the end.
-/

namespace AccessAudit

/-! ### Severities of buckets -/

theorem Severity.isViolation_eq (severity : Severity) :
  severity.isViolation = decide (severity = .high ∨ severity = .critical)
  := by
  cases severity <;> rfl

theorem Severity.not_isViolation_eq (severity : Severity) :
  (!severity.isViolation) = decide (severity = .medium ∨ severity = .low)
  := by
  cases severity <;> rfl

namespace Report

/-! ### Steps -/

/-- One step in building a report. -/
inductive Step where
  | push (f : Finding)
  | extend (fs : List Finding)
  | sort

/-- The findings that a step adds. -/
def Step.findings : Step → List Finding
  | .push f => [f]
  | .extend fs => fs
  | .sort => []

/-- Whether a step only sorts. -/
def Step.isSort : Step → Bool
  | .sort => true
  | _ => false

/-- What a step makes of a report. -/
def step (r : Report) : Step → Report
  | .push f => r.push f
  | .extend fs => r.extend fs
  | .sort => r.sort

/-- The report that some steps build from nothing. -/
def build (steps : List Step) : Report :=
  steps.foldl step .empty

/-- The findings that some steps add, in order. -/
def added (steps : List Step) : List Finding :=
  steps.flatMap Step.findings

@[simp]
theorem build_concat (steps : List Step) (s : Step) :
  build (steps ++ [s]) = (build steps).step s
  := by
  rw [build, List.foldl_append]
  rfl

@[simp]
theorem added_concat (steps : List Step) (s : Step) :
  added (steps ++ [s]) = added steps ++ s.findings
  := by
  rw [added, List.flatMap_append, List.flatMap_singleton, added]

/-- Leaving out the steps that only sort leaves out no finding. -/
theorem added_filter (steps : List Step) :
  added (steps.filter fun s => !s.isSort) = added steps
  := by
  induction steps with
  | nil => rfl
  | cons s steps ih =>
    have hcons : ∀ steps, added (s :: steps) = s.findings ++ added steps := fun _ => rfl
    cases hs : s.isSort with
    | false => rw [List.filter_cons_of_pos (by rw [hs]; rfl), hcons, hcons, ih]
    | true =>
      have hnil : s.findings = [] := by
        cases s with
        | sort => rfl
        | push | extend => cases hs
      rw [List.filter_cons_of_neg (by rw [hs]; decide), hcons, hnil, List.nil_append, ih]

/-! ### What a report holds -/

/-- A report that holds some findings and nothing else: each in the bucket of its severity, up to an
order in which findings of one line of one file stand as they are given. -/
structure Gathers (r : Report) (fs : List Finding) : Prop where
  violations : TieEquiv Finding.compare r.violations (fs.filter fun f => f.severity.isViolation)
  warnings : TieEquiv Finding.compare r.warnings (fs.filter fun f => !f.severity.isViolation)
  scanned : r.scanned = 0
  failed : r.failed = []

variable {r r' : Report} {fs : List Finding}

theorem gathers_empty :
  empty.Gathers []
  := ⟨.refl [], .refl [], rfl, rfl⟩

/-- Findings may be added. -/
theorem Gathers.extend (h : r.Gathers fs) (gs : List Finding) :
  (r.extend gs).Gathers (fs ++ gs)
  := by
  refine ⟨?_, ?_, h.scanned, h.failed⟩
  · rw [List.filter_append]
    apply h.violations.append_right
  · rw [List.filter_append]
    apply h.warnings.append_right

theorem Gathers.stableSort (h : r.Gathers fs) :
  StableSort Finding.compare (fs.filter fun f => f.severity.isViolation) r.sort.violations
    ∧ StableSort Finding.compare (fs.filter fun f => !f.severity.isViolation) r.sort.warnings
  := by
  constructor
  · apply (StableSort.mergeSort r.violations).of_tieEquiv h.violations
  · apply (StableSort.mergeSort r.warnings).of_tieEquiv h.warnings

theorem Gathers.sort (h : r.Gathers fs) :
  r.sort.Gathers fs
  := by
  obtain ⟨violations, warnings⟩ := h.stableSort
  exact ⟨violations.tieEquiv, warnings.tieEquiv, h.scanned, h.failed⟩

/-- A step adds its findings to what a report holds. -/
theorem Gathers.step (h : r.Gathers fs) (s : Step) :
  (r.step s).Gathers (fs ++ s.findings)
  := by
  cases s with
  | push f =>
    have hpush : r.push f = r.extend [f] := (r.extend_eq_foldl [f]).symm
    rw [Report.step, hpush]
    apply h.extend
  | extend gs => apply h.extend
  | sort =>
    rw [Step.findings, List.append_nil]
    apply h.sort

theorem gathers_build (steps : List Step) :
  (build steps).Gathers (added steps)
  := by
  induction steps using List.reverseRecOn with
  | nil => apply gathers_empty
  | append_singleton steps s ih =>
    simpa using ih.step s

/-- Reports that hold the same findings are the same when they are sorted. -/
theorem Gathers.sort_eq_sort (h : r.Gathers fs) (h' : r'.Gathers fs) :
  r.sort = r'.sort
  := by
  obtain ⟨violations, warnings⟩ := h.stableSort
  obtain ⟨violations', warnings'⟩ := h'.stableSort
  have hscanned : r.scanned = r'.scanned := h.scanned.trans h'.scanned.symm
  have hfailed : r.failed = r'.failed := h.failed.trans h'.failed.symm
  have hviolations := violations.unique violations'
  have hwarnings := warnings.unique warnings'
  simp only [Report.sort] at hviolations hwarnings ⊢
  rw [hviolations, hwarnings, hscanned, hfailed]

theorem Gathers.total_eq (h : r.Gathers fs) :
  r.total = fs.length
  := by
  rw [total, h.violations.perm.length_eq, h.warnings.perm.length_eq]
  apply (List.length_eq_length_filter_add _).symm

theorem Gathers.hasViolations_iff (h : r.Gathers fs) :
  r.hasViolations = true ↔ ∃ f ∈ fs, f.severity.isViolation = true
  := by
  rw [hasViolations, Bool.not_eq_true', List.isEmpty_eq_false_iff_exists_mem]
  simp only [h.violations.perm.mem_iff, List.mem_filter]

/-- After any steps each bucket holds findings of its severities only, all findings that were added
are in the report, and there is a violation if one was added.  Sorting the report then gives the same
as without the sorts on the way, and sorting it twice the same as once: each bucket is the stable
sort of the findings of its severities that were added, where those are tied that are on the same
line of files with the same components. -/
theorem sort_build_eq_sort_once (steps : List Step) :
  (∀ f ∈ (build steps).violations, f.severity = .high ∨ f.severity = .critical)
    ∧ (∀ f ∈ (build steps).warnings, f.severity = .medium ∨ f.severity = .low)
    ∧ (build steps).total = (added steps).length
    ∧ ((build steps).hasViolations = true
        ↔ ∃ f ∈ added steps, f.severity = .high ∨ f.severity = .critical)
    ∧ (build steps).sort = (build (steps.filter fun s => !s.isSort)).sort
    ∧ (build steps).sort.sort = (build steps).sort
    ∧ StableSort Finding.compare
        ((added steps).filter fun f => f.severity = .high ∨ f.severity = .critical)
        (build steps).sort.violations
    ∧ StableSort Finding.compare
        ((added steps).filter fun f => f.severity = .medium ∨ f.severity = .low)
        (build steps).sort.warnings
    ∧ ∀ f g : Finding, f.compare g = .eq
        ↔ Path.components f.location.file = Path.components g.location.file
          ∧ f.location.line = g.location.line
  := by
  -- Reports that gather the same findings sort to the same report, whatever sorts were in between.
  have hbuild := gathers_build steps
  have hdirect := gathers_build (steps.filter fun s => !s.isSort)
  rw [added_filter] at hdirect
  obtain ⟨violations, warnings⟩ := hbuild.stableSort
  have hhigh : ∀ f : Finding, f.severity.isViolation = true
      ↔ f.severity = .high ∨ f.severity = .critical := by
    intro f
    rw [Severity.isViolation_eq, decide_eq_true_iff]
  refine ⟨?_, ?_, hbuild.total_eq, ?_, hbuild.sort_eq_sort hdirect, hbuild.sort.sort_eq_sort hbuild,
    ?_, ?_, fun f g => Finding.compare_eq_iff⟩
  · intro f hf
    apply (hhigh f).mp (List.mem_filter.mp (hbuild.violations.perm.mem_iff.mp hf)).2
  · intro f hf
    have hlow := (List.mem_filter.mp (hbuild.warnings.perm.mem_iff.mp hf)).2
    rw [Severity.not_isViolation_eq, decide_eq_true_iff] at hlow
    apply hlow
  · simp only [hbuild.hasViolations_iff, hhigh]
  · simp only [← Severity.isViolation_eq]
    apply violations
  · simp only [← Severity.not_isViolation_eq]
    apply warnings

/-- Two spellings of one path, with a sort between the findings on the same line: these are tied,
and stay in the order in which they were added. -/
theorem sort_build_eq_sort_once_two_spellings :
  let finding (file : String) (line : Nat) (severity : Severity) : Finding :=
    { rule := "image-alt", severity := severity, location := ⟨file, line, 0⟩,
      message := "Image has no alt attribute", criterion := "1.1.1" }
  let late := finding "a/b.tsx" 9 .high
  let first := finding "a//b.tsx" 5 .high
  let second := finding "a/b.tsx" 5 .critical
  let hint := finding "a/b.tsx" 1 .low
  let steps : List Step := [.push late, .push first, .sort, .extend [hint, second]]
  (late ∈ (build steps).violations ∧ (late.severity = .high ∨ late.severity = .critical))
    ∧ (hint ∈ (build steps).warnings ∧ (hint.severity = .medium ∨ hint.severity = .low))
    ∧ (build steps).total = 4
    ∧ (build steps).sort = (build [.push late, .push first, .extend [hint, second]]).sort
    ∧ first.compare second = .eq
    ∧ (build steps).sort.violations.filter (fun f => first.compare f == .eq) = [first, second]
  := by
  intro finding late first second hint steps
  obtain ⟨hviolations, hwarnings, htotal, -, honce, -, hsorted, -, htied⟩ :=
    sort_build_eq_sort_once steps
  have hgathers := gathers_build steps
  have hlate : late ∈ (build steps).violations :=
    hgathers.violations.perm.mem_iff.mpr (by decide)
  have hhint : hint ∈ (build steps).warnings := hgathers.warnings.perm.mem_iff.mpr (by decide)
  refine ⟨⟨hlate, hviolations late hlate⟩, ⟨hhint, hwarnings hint hhint⟩, htotal, honce,
    (htied first second).mpr (by decide), (hsorted.ties first).trans ?_⟩
  decide

end Report

end AccessAudit
