import AccessAudit.Proofs.Report.Building
import AccessAudit.Scan

/-!
# What a scan reports

`Scanner.Describes` says of a report what it has to hold for a list of files, without a word about
how it is built: the files that could not be scanned in the order of the list, the number of the
others, and in each bucket the findings of its severities in their sorted form.  A scan of files
makes the one report that is so described.
-/

namespace AccessAudit.Scanner

/-- The findings on the file at a path.  There are none to speak of if the file cannot be read or
its syntax is wrong. -/
def findings? (s : Scanner) (read : String → Except ReadFailure String) (path : String) :
    Option (List Finding) :=
  match read path with
  | .ok text => (s.scanText path text).toOption
  | .error _ => none

/-- The listed files that there is a reader for. -/
def handled (s : Scanner) (paths : List String) : List String :=
  paths.filter s.handles

/-- The findings on all files that can be scanned, in the order of the list. -/
def found (s : Scanner) (read : String → Except ReadFailure String) (paths : List String) :
    List Finding :=
  (s.handled paths).flatMap fun path => (s.findings? read path).getD []

/-- A report that holds what a scan of some files has to report. -/
structure Describes (s : Scanner) (read : String → Except ReadFailure String)
    (paths : List String) (r : Report) : Prop where
  failed : r.failed = (s.handled paths).filter fun path => (s.findings? read path).isNone
  scanned : r.scanned = (s.handled paths).countP fun path => (s.findings? read path).isSome
  violations : StableSort Finding.compare
    ((s.found read paths).filter fun f => f.severity = .high ∨ f.severity = .critical) r.violations
  warnings : StableSort Finding.compare
    ((s.found read paths).filter fun f => f.severity = .medium ∨ f.severity = .low) r.warnings

variable {s : Scanner} {read : String → Except ReadFailure String}

@[simp]
theorem toOption_scanFile (path : String) :
  (s.scanFile read path).toOption = s.findings? read path
  := by
  unfold scanFile findings?
  cases read path with
  | ok text => rfl
  | error failure => rfl

/-! ### One more file -/

theorem addFile_of_not_handles {path : String} (h : s.handles path = false) (r : Report) :
  s.addFile read r path = r
  := by
  simp [addFile, h]

/-- A file that can be scanned adds its findings and is counted. -/
theorem addFile_of_findings? {path : String} {fs : List Finding} (h : s.handles path = true)
    (hf : s.findings? read path = some fs) (r : Report) :
  s.addFile read r path = (r.extend fs).countScanned
  := by
  rw [← toOption_scanFile] at hf
  unfold addFile
  rw [if_pos h]
  cases hs : s.scanFile read path with
  | ok gs =>
    rw [hs] at hf
    cases hf
    rfl
  | error e =>
    rw [hs] at hf
    cases hf

/-- A file that cannot be scanned is named. -/
theorem addFile_of_findings?_eq_none {path : String} (h : s.handles path = true)
    (hf : s.findings? read path = none) (r : Report) :
  s.addFile read r path = r.addFailed path
  := by
  rw [← toOption_scanFile] at hf
  unfold addFile
  rw [if_pos h]
  cases hs : s.scanFile read path with
  | ok gs =>
    rw [hs] at hf
    cases hf
  | error e => rfl

/-! ### All files -/

/-- The unsorted report on some files, on top of what a report already holds. -/
theorem foldl_addFile (paths : List String) (r : Report) :
  paths.foldl (s.addFile read) r =
    { violations := r.violations ++ (s.found read paths).filter fun f => f.severity.isViolation
      warnings := r.warnings ++ (s.found read paths).filter fun f => !f.severity.isViolation
      scanned := r.scanned
        + (s.handled paths).countP fun path => (s.findings? read path).isSome
      failed := r.failed
        ++ (s.handled paths).filter fun path => (s.findings? read path).isNone }
  := by
  -- The report so far is generalized, and each path adds to it what it adds to the description.
  induction paths generalizing r with
  | nil => simp [found, handled]
  | cons path paths ih =>
    rw [List.foldl_cons, ih]
    cases h : s.handles path with
    | false =>
      have hskip : s.handled (path :: paths) = s.handled paths := by simp [handled, h]
      rw [addFile_of_not_handles h, found, found, hskip]
    | true =>
      have hkeep : s.handled (path :: paths) = path :: s.handled paths := by simp [handled, h]
      cases hf : s.findings? read path with
      | some fs =>
        rw [addFile_of_findings? h hf, found, found, hkeep]
        simp [Report.extend, Report.countScanned, hf]
        omega
      | none =>
        rw [addFile_of_findings?_eq_none h hf, found, found, hkeep]
        simp [Report.addFailed, hf]

/-- A scan makes a report as it is described. -/
theorem describes_scanFiles (s : Scanner) (read : String → Except ReadFailure String)
    (h : s.settings.enabled = true) (paths : List String) :
  s.Describes read paths (s.scanFiles read paths)
  := by
  have hreport : s.scanFiles read paths = (paths.foldl (s.addFile read) .empty).sort := by
    simp [scanFiles, h]
  rw [hreport, foldl_addFile]
  constructor
  · simp [Report.sort, Report.empty]
  · simp [Report.sort, Report.empty]
  · simp only [Report.sort, Report.empty, List.nil_append, Severity.isViolation_eq]
    apply StableSort.mergeSort _
  · simp only [Report.sort, Report.empty, List.nil_append, Severity.not_isViolation_eq]
    apply StableSort.mergeSort _

/-- A list of files has one report as it is described. -/
theorem Describes.unique {paths : List String} {r r' : Report}
    (h : s.Describes read paths r) (h' : s.Describes read paths r') :
  r = r'
  := by
  obtain ⟨violations, warnings, scanned, failed⟩ := r
  obtain ⟨violations', warnings', scanned', failed'⟩ := r'
  obtain rfl : violations = violations' := h.violations.unique h'.violations
  obtain rfl : warnings = warnings' := h.warnings.unique h'.warnings
  obtain rfl : scanned = scanned' := h.scanned.trans h'.scanned.symm
  obtain rfl : failed = failed' := h.failed.trans h'.failed.symm
  rfl

/-- Every file with a reader is either counted or named. -/
theorem Describes.scanned_add_length_failed {paths : List String} {r : Report}
    (h : s.Describes read paths r) :
  r.scanned + r.failed.length = (s.handled paths).length
  := by
  rw [h.scanned, h.failed, ← List.countP_eq_length_filter]
  have hnone : (fun path => (s.findings? read path).isNone)
      = fun path => decide ¬(s.findings? read path).isSome = true := by
    funext path
    cases s.findings? read path <;> rfl
  rw [hnone]
  apply (List.length_eq_countP_add_countP _).symm

/-- A scan that the settings enable makes exactly the report that is described, in which every file
with a reader is counted or named.  A scan that they do not enable reports nothing. -/
theorem scanFiles_eq_iff_describes (s : Scanner) (read : String → Except ReadFailure String)
    (paths : List String) :
  (s.settings.enabled = true →
    (∀ r, s.scanFiles read paths = r ↔ s.Describes read paths r)
      ∧ (s.scanFiles read paths).scanned + (s.scanFiles read paths).failed.length
          = (s.handled paths).length)
    ∧ (s.settings.enabled = false → s.scanFiles read paths = .empty)
  := by
  constructor
  · intro h
    have described := s.describes_scanFiles read h paths
    constructor
    · intro r
      constructor
      · rintro rfl
        apply described
      · apply described.unique
    · apply described.scanned_add_length_failed
  · intro h
    simp [scanFiles, h]

/-- A file that can be scanned, one with wrong syntax, one without a reader, and one that is
missing: three of the four are counted or named. -/
theorem scanFiles_four_paths :
  let s : Scanner :=
    ⟨".", [⟨"tsx", ["tsx"], fun path text =>
        if text = "!!" then .error ⟨path, 1, 1, "unexpected \x60!!\x60"⟩ else .ok ⟨[], []⟩⟩],
      [Rule.ofLine Rule.altText], .default⟩
  let read : String → Except ReadFailure String := fun path =>
    if path = "a.tsx" then .ok "<img>" else if path = "b.tsx" then .ok "!!" else .error .missing
  let paths := ["a.tsx", "b.tsx", "c.md", "d.tsx"]
  s.settings.enabled = true ∧ s.Describes read paths (s.scanFiles read paths)
    ∧ (s.scanFiles read paths).scanned + (s.scanFiles read paths).failed.length = 3
  := by
  intro s read paths
  have h := (scanFiles_eq_iff_describes s read paths).1 rfl
  have hlen : (s.handled paths).length = 3 := by decide
  exact ⟨rfl, (h.1 _).mp rfl, h.2.trans hlen⟩

end AccessAudit.Scanner
