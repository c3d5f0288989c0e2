import AccessAudit.Markup.Grammar.Parser
import AccessAudit.Proofs.Markup.Faults
import AccessAudit.Proofs.Text.Lines

/-!
# Where the grammars report faults

Every repair that a diagnosis looks for is at a place of the source, so that the report of a wrong
source names one of its lines and a column of that line.
-/

namespace AccessAudit.Markup.Grammar

variable {d : Dialect} {source before after : List Char} {cut : Cut} {t : FaultyTree}

/-- A faulty node that stands behind a beginning of a source. -/
def StandsIn (source : List Char) (t : FaultyTree) : Prop :=
  ∃ before fault text, before <+: source ∧ t = faultyAfter before fault text

/-- A cut of a source is at a character that satisfies the test. -/
theorem eq_append_of_mem_cuts {test : Char → Bool} (h : cut ∈ cuts test source) :
  source = cut.before ++ cut.char :: cut.after ∧ test cut.char = true
  := by
  obtain ⟨⟨x, i⟩, hmem, h⟩ := List.mem_filterMap.mp h
  have hx : source[i]? = some x := List.mem_zipIdx_iff_getElem?.mp hmem
  obtain ⟨hi, rfl⟩ := List.getElem?_eq_some_iff.mp hx
  simp only at h
  split at h
  · cases h
    refine ⟨?_, ‹_›⟩
    rw [List.getElem_cons_drop, List.take_append_drop]
  · cases h

theorem isPrefix_of_mem_cuts {test : Char → Bool} (h : cut ∈ cuts test source) :
  cut.before <+: source
  := by
  rw [(eq_append_of_mem_cuts h).1]
  apply List.prefix_append

/-- A bracket too much stands where it was looked for. -/
theorem standsIn_of_stray? (hcut : cut.before <+: source) (h : stray? d cut = some t) :
  StandsIn source t
  := by
  unfold stray? at h
  simp only at h
  split at h
  · cases h
  · split at h
    · cases h
      exact ⟨cut.before, _, _, hcut, rfl⟩
    · cases h
      exact ⟨cut.before, _, _, hcut, rfl⟩

theorem standsIn_of_missing? {brackets : List Char} (hbefore : before <+: source)
    (h : missing? d brackets before after = some t) :
  StandsIn source t
  := by
  obtain ⟨x, -, rfl⟩ := Option.map_eq_some_iff.mp h
  exact ⟨Text.trimEnd before, _, _, (Text.trimEnd_isPrefix before).trans hbefore, rfl⟩

/-- Every diagnosis stands in its source. -/
theorem standsIn_diagnose (d : Dialect) (source : List Char) :
  StandsIn source (diagnose d source)
  := by
  unfold diagnose
  simp only
  cases hstray : (cuts isCloser source).reverse.findSome? (stray? d) with
  | some t =>
    obtain ⟨cut, hmem, ht⟩ := List.exists_of_findSome?_eq_some hstray
    rw [List.mem_reverse] at hmem
    apply standsIn_of_stray? (isPrefix_of_mem_cuts hmem) ht
  | none =>
    cases hgap : (cuts (· == ';') source).findSome? fun cut =>
        missing? d [')', ']'] cut.before (cut.char :: cut.after) with
    | some t =>
      obtain ⟨cut, hmem, ht⟩ := List.exists_of_findSome?_eq_some hgap
      apply standsIn_of_missing? (isPrefix_of_mem_cuts hmem) ht
    | none =>
      cases hend : missing? d ['\x7d'] source [] with
      | some t => apply standsIn_of_missing? (List.prefix_refl source) hend
      | none => exact ⟨[], .unexpected, [], List.nil_prefix, rfl⟩

/-- The report of a wrong source names a place of it: the line of the place, and the column that
comes after the bytes before the place on that line. -/
theorem exists_place_of_read {d : Dialect} {path source : String} {e : SyntaxError}
    (h : Page.read parser d path source = .error e) :
  e.path = path ∧ ∃ before, before <+: source.toList ∧ e.line = before.count '\n' + 1
    ∧ e.column = Text.byteLength ((Text.lines before).getLastD []) + 1
  := by
  obtain ⟨before, fault, text, hbefore, hdiagnosis⟩ := standsIn_diagnose d source.toList
  cases hparse : parser.parse d source with
  | ok t =>
    rw [Page.read, hparse] at h
    cases h
  | error t =>
    have ht : t = .node none 1 1 source [diagnose d source.toList] := by
      rw [parser] at hparse
      simp only at hparse
      split at hparse
      · cases hparse
      · cases hparse
        rfl
    -- The tree has one faulty node, below a root without a fault.
    have hfirst : t.preorder.find? FaultyTree.isFaulty = some (diagnose d source.toList) := by
      rw [ht, hdiagnosis]
      rfl
    rw [Page.read_of_faulty hparse hfirst, hdiagnosis] at h
    cases h
    refine ⟨rfl, before, hbefore, ?_, rfl⟩
    rw [← Text.length_splitOn, ← Text.lines_eq_splitOn]
    rfl

end AccessAudit.Markup.Grammar
