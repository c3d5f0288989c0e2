import AccessAudit.Report.Finding

/-!
# Reports

A report keeps the violations and the warnings apart, counts the files that were scanned, and names
the files that could not be.
-/

namespace AccessAudit

/-- The outcome of scanning some files. -/
structure Report where
  violations : List Finding := []
  warnings : List Finding := []
  scanned : Nat := 0
  failed : List String := []
  deriving DecidableEq, Repr

namespace Report

/-- The report of nothing. -/
def empty : Report :=
  {}

/-- Adds a finding at the end of the bucket that its severity selects. -/
def push (r : Report) (f : Finding) : Report :=
  if f.severity.isViolation then { r with violations := r.violations ++ [f] }
  else { r with warnings := r.warnings ++ [f] }

/-- Adds findings in order. -/
def extend (r : Report) (fs : List Finding) : Report :=
  { r with
    violations := r.violations ++ fs.filter fun f => f.severity.isViolation
    warnings := r.warnings ++ fs.filter fun f => !f.severity.isViolation }

/-- Adding a list is adding its members one after the other. -/
theorem extend_eq_foldl (r : Report) (fs : List Finding) :
  r.extend fs = fs.foldl push r
  := by
  induction fs generalizing r with
  | nil => simp [extend]
  | cons f fs ih =>
    rw [List.foldl_cons, ← ih]
    cases h : f.severity.isViolation <;> simp [extend, push, h]

/-- Counts one more scanned file. -/
def countScanned (r : Report) : Report :=
  { r with scanned := r.scanned + 1 }

/-- Names one more file that could not be scanned. -/
def addFailed (r : Report) (path : String) : Report :=
  { r with failed := r.failed ++ [path] }

/-- Number of findings. -/
def total (r : Report) : Nat :=
  r.violations.length + r.warnings.length

/-- Whether nothing was found. -/
def isClean (r : Report) : Bool :=
  r.total == 0

/-- Whether there is a violation. -/
def hasViolations (r : Report) : Bool :=
  !r.violations.isEmpty

/-- Sorts both buckets by file, then line; findings of one line keep their order. -/
def sort (r : Report) : Report :=
  { r with
    violations := r.violations.mergeSort Finding.le
    warnings := r.warnings.mergeSort Finding.le }

/-- A bucket as a numbered list under a headline; nothing if it is empty. -/
def listing (title : String) (fs : List Finding) : String :=
  if fs.isEmpty then ""
  else
    toString fs.length ++ " " ++ title ++ "(s) found:\n\n"
      ++ String.join (fs.zipIdx.map fun (f, i) => toString (i + 1) ++ ". " ++ f.format ++ "\n")

/-- The report for a person. -/
def format (r : Report) : String :=
  if r.isClean then "No accessibility issues found in " ++ toString r.scanned ++ " file(s)\n"
  else
    listing "violation" r.violations ++ listing "warning" r.warnings
      ++ "Total: " ++ toString r.violations.length ++ " violation(s), "
      ++ toString r.warnings.length ++ " warning(s) in " ++ toString r.scanned ++ " file(s)\n"

/-- The report with one finding a line, violations first. -/
def compact (r : Report) : String :=
  String.join ((r.violations ++ r.warnings).map fun f => f.compact ++ "\n")

end Report

end AccessAudit
