import AccessAudit.Proofs.Rule.FirstMatch
import AccessAudit.Proofs.Text.Lines

/-!
# Line by line

A line rule never looks across the end of a line.  What it finds in a text that is put together from
two texts with a line feed between them is what it finds in the first one, and then what it finds in
the second one, moved down by the lines of the first.  Its findings come line by line, and on every
line in the order of its checks, at most one for each.
-/

namespace AccessAudit

/-! ### Lines of two texts -/

namespace Document

variable (root path : String)

theorem rawLines_append (s t : String) :
  (Document.of root path (s ++ "\n" ++ t)).rawLines
    = (Document.of root path s).rawLines ++ (Document.of root path t).rawLines
  := by
  have htext : (s ++ "\n" ++ t).toList = s.toList ++ '\n' :: t.toList := by simp
  simp only [Document.of, Text.lines_eq_splitOn, htext]
  apply List.splitOn_append_cons_self

/-- The lines of the second text are numbered on from those of the first one. -/
theorem numberedLines_append (s t : String) :
  (Document.of root path (s ++ "\n" ++ t)).numberedLines
    = (Document.of root path s).numberedLines
      ++ (Document.of root path t).numberedLines.map
          (Prod.map (· + (s.toList.count '\n' + 1)) id)
  := by
  have hlength : (Document.of root path s).rawLines.length = s.toList.count '\n' + 1 := by
    rw [Document.of, Text.lines_eq_splitOn]
    apply Text.length_splitOn
  rw [numberedLines, rawLines_append, List.zipIdx_append, List.map_append, hlength, Nat.zero_add,
    List.zipIdx_eq_map_add (i := s.toList.count '\n' + 1), List.map_map, numberedLines,
    numberedLines, List.map_map]
  congr 1
  apply List.map_congr_left
  rintro ⟨line, i⟩ -
  simp only [Function.comp_apply, Prod.map_apply, id_eq, Prod.mk.injEq, and_true]
  omega

end Document

/-- The same finding some lines further down in its file. -/
def Finding.movedDown (n : Nat) (f : Finding) : Finding :=
  { f with location := { f.location with line := f.location.line + n } }

namespace Rule

/-! ### Findings of a check -/

/-- What a check finds on a line does not depend on the number of the line, nor on the other
lines. -/
theorem LineCheck.finding?_add (check : LineCheck) (rule : String) {d d' : Document}
    (hfile : d.file = d'.file) (number n : Nat) (line : List Char) :
  check.finding? rule d (number + n) line
    = (check.finding? rule d' number line).map (Finding.movedDown n)
  := by
  rw [finding?, finding?, Option.map_map]
  apply Option.map_congr
  intro offset hoffset
  simp only [Function.comp_apply, Document.location, Finding.movedDown, hfile]

/-- What a rule finds in two texts with a line feed between them. -/
theorem LineRule.findings_append (rule : LineRule) (root path s t : String) :
  rule.findings (Document.of root path (s ++ "\n" ++ t))
    = rule.findings (Document.of root path s)
      ++ (rule.findings (Document.of root path t)).map
          (Finding.movedDown (s.toList.count '\n' + 1))
  := by
  simp only [findings, Document.numberedLines_append, List.flatMap_append, List.flatMap_map,
    List.map_flatMap, List.map_filterMap]
  congr 1
  apply List.flatMap_congr
  rintro ⟨number, line⟩ -
  apply List.filterMap_congr
  intro check _
  apply check.finding?_add
  rfl

/-! ### Order of findings -/

/-- The lines of a document are numbered upwards. -/
theorem pairwise_numberedLines (d : Document) :
  d.numberedLines.Pairwise fun a b => a.1 < b.1
  := by
  have hindices : d.rawLines.zipIdx.Pairwise fun a b => a.2 < b.2 := by
    rw [← List.pairwise_map (f := Prod.snd) (R := (· < ·)), List.zipIdx_map_snd]
    apply List.pairwise_lt_range' 1 Nat.one_pos
  rw [Document.numberedLines, List.pairwise_map]
  apply hindices.imp
  intro a b hlt
  apply Nat.succ_lt_succ hlt

/-- What a rule finds on one line of a document. -/
def LineRule.foundOn (rule : LineRule) (d : Document) (number : Nat) (line : List Char) :
    List Finding :=
  rule.checks.filterMap fun check => check.finding? rule.id d number line

theorem LineRule.line_of_mem_foundOn {rule : LineRule} {d : Document} {number : Nat}
    {line : List Char} {f : Finding} (h : f ∈ rule.foundOn d number line) :
  f.location.line = number
  := by
  obtain ⟨check, -, hf⟩ := List.mem_filterMap.mp h
  apply (LineCheck.eq_of_mem_finding? hf).1

/-- The findings of a rule come line by line. -/
theorem LineRule.pairwise_findings (rule : LineRule) (d : Document) :
  (rule.findings d).Pairwise fun f g => f.location.line ≤ g.location.line
  := by
  apply List.pairwise_flatMap.mpr
  constructor
  · rintro ⟨number, line⟩ -
    apply List.pairwise_of_forall_mem_list
    intro f hf g hg
    rw [line_of_mem_foundOn hf, line_of_mem_foundOn hg]
  · apply (pairwise_numberedLines d).imp
    rintro ⟨number, line⟩ ⟨number', line'⟩ hlt f hf g hg
    rw [line_of_mem_foundOn hf, line_of_mem_foundOn hg]
    apply hlt.le

/-- The findings of a rule that are placed on one line. -/
def LineRule.placedOn (rule : LineRule) (d : Document) (number : Nat) : List Finding :=
  (rule.findings d).filter fun f => f.location.line == number

/-- What is placed on a line is what is found on it. -/
theorem LineRule.placedOn_eq (rule : LineRule) {d : Document} {number : Nat} {line : List Char}
    (hline : (number, line) ∈ d.numberedLines) :
  rule.placedOn d number = rule.foundOn d number line
  := by
  have hother : ∀ b : Nat × List Char, b.1 ≠ number →
      (rule.foundOn d b.1 b.2).filter (fun f => f.location.line == number) = [] := by
    intro b hb
    apply List.filter_eq_nil_iff.mpr
    intro f hf
    rw [line_of_mem_foundOn hf]
    simpa using hb
  rw [placedOn, findings, List.filter_flatMap]
  apply (flatMap_eq_of_nodup (nodup_numberedLines d) hline hother).trans
  apply List.filter_eq_self.mpr
  intro f hf
  rw [line_of_mem_foundOn hf]
  apply beq_self_eq_true

/-- Nothing is placed on a line that there is not. -/
theorem LineRule.placedOn_eq_nil (rule : LineRule) {d : Document} {number : Nat}
    (hnone : ∀ line, (number, line) ∉ d.numberedLines) :
  rule.placedOn d number = []
  := by
  apply List.filter_eq_nil_iff.mpr
  intro f hf
  obtain ⟨⟨number', line⟩, hline, hf⟩ := List.mem_flatMap.mp hf
  rw [line_of_mem_foundOn hf, beq_iff_eq]
  rintro rfl
  apply hnone line hline

/-- A finding that says what a check says. -/
structure LineCheck.Says (check : LineCheck) (f : Finding) : Prop where
  severity : f.severity = check.severity
  message : f.message = check.message
  criterion : f.criterion = check.criterion

/-- The findings on a line come in the order of the checks, at most one for each. -/
theorem LineRule.sublistForall₂_foundOn (rule : LineRule) (d : Document) (number : Nat)
    (line : List Char) :
  List.SublistForall₂ (fun f check => check.Says f) (rule.foundOn d number line) rule.checks
  := by
  rw [foundOn]
  induction rule.checks with
  | nil => apply List.SublistForall₂.nil
  | cons check checks ih =>
    rw [List.filterMap_cons]
    split
    · apply ih.cons_right
    · rename_i f hf
      obtain ⟨offset, -, rfl⟩ := Option.map_eq_some_iff.mp hf
      apply List.SublistForall₂.cons _ ih
      constructor <;> rfl

/-- The findings of a rule, line by line, and on every line in the order of the checks, at most one
for each. -/
structure LineRule.InOrder (rule : LineRule) (d : Document) : Prop where
  lines : (rule.findings d).Pairwise fun f g => f.location.line ≤ g.location.line
  checks : ∀ number,
    List.SublistForall₂ (fun f check => check.Says f) (rule.placedOn d number) rule.checks

/-- A line rule finds in two texts with a line feed between them what it finds in the first one, and
then what it finds in the second one as many lines further down as the first one has; and its
findings come line by line, on every line in the order of its checks and at most one for each. -/
theorem LineRule.findings_lineByLine (rule : LineRule) (root path : String) :
  (∀ s t, rule.findings (Document.of root path (s ++ "\n" ++ t))
      = rule.findings (Document.of root path s)
        ++ (rule.findings (Document.of root path t)).map
            (Finding.movedDown (s.toList.count '\n' + 1)))
    ∧ ∀ text, rule.InOrder (Document.of root path text)
  := by
  constructor
  · intro s t
    apply rule.findings_append
  · intro text
    constructor
    · apply rule.pairwise_findings
    · intro number
      by_cases hline : ∃ line, (number, line) ∈ (Document.of root path text).numberedLines
      · obtain ⟨line, hline⟩ := hline
        rw [rule.placedOn_eq hline]
        apply rule.sublistForall₂_foundOn
      · rw [rule.placedOn_eq_nil (not_exists.mp hline)]
        apply List.SublistForall₂.nil

end Rule

end AccessAudit
