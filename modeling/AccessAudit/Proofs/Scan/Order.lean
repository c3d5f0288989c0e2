import AccessAudit.Proofs.Scan.Attribution

/-!
# The order of the files

A report does not depend on the order in which files are listed.  All findings of a built-in rule
carry the reported path of the file, so findings that are tied in the order of a report come from
one file, as long as no two listed files have the same reported path.  They then stand in the report
as often and in the same order as the file gives them, wherever it is listed.
-/

namespace AccessAudit

open Std

/-! ### Sorting what several sources give -/

section Sources

variable {α β : Type}

/-- If all sources but one give nothing, it does not matter in which order they are asked. -/
theorem flatMap_eq_of_perm {give : α → List β} {source : α} {xs ys : List α} (hperm : xs.Perm ys)
    (h : ∀ x ∈ xs, x ≠ source → give x = []) :
  xs.flatMap give = ys.flatMap give
  := by
  induction hperm with
  | nil => rfl
  | cons x _ ih =>
    rw [List.flatMap_cons, List.flatMap_cons, ih fun y hy => h y (List.mem_cons_of_mem x hy)]
  | swap x y zs =>
    simp only [List.flatMap_cons]
    by_cases hx : x = source
    · by_cases hy : y = source
      · rw [hx, hy]
      · rw [h y List.mem_cons_self hy, List.nil_append, List.nil_append]
    · rw [h x (List.mem_cons_of_mem y List.mem_cons_self) hx, List.nil_append, List.nil_append]
  | trans hperm _ ih ih' => rw [ih h, ih' fun x hx => h x (hperm.mem_iff.mpr hx)]

/-- What several sources give has the same stable sort in whatever order they are asked, if members
that are tied come from one source. -/
theorem StableSort.eq_of_perm {compare : β → β → Ordering} [TransCmp compare] {give : α → List β}
    {xs ys : List α} (hperm : xs.Perm ys)
    (htied : ∀ x ∈ xs, ∀ a ∈ give x, ∀ y ∈ xs, ∀ b ∈ give y, compare a b = .eq → x = y)
    {s t : List β} (hs : StableSort compare (xs.flatMap give) s)
    (ht : StableSort compare (ys.flatMap give) t) :
  s = t
  := by
  have hgive : (xs.flatMap give).Perm (ys.flatMap give) := hperm.flatMap_right give
  apply eq_of_ordered_of_ties (hs.perm.trans (hgive.trans ht.perm.symm)) hs.ordered ht.ordered
  intro a
  rw [hs.ties, ht.ties, List.filter_flatMap, List.filter_flatMap]
  by_cases hnone : ∀ x ∈ xs, (give x).filter (fun b => compare a b == .eq) = []
  · rw [List.flatMap_eq_nil_iff.mpr hnone,
      List.flatMap_eq_nil_iff.mpr fun y hy => hnone y (hperm.mem_iff.mpr hy)]
  -- One source gives something tied with `a`, so no other source does.
  · simp only [Classical.not_forall] at hnone
    obtain ⟨source, hsource, hne⟩ := hnone
    obtain ⟨b, hb⟩ := List.exists_mem_of_ne_nil _ hne
    obtain ⟨hb, hab⟩ := List.mem_filter.mp hb
    refine flatMap_eq_of_perm hperm fun x hx (hxs : x ≠ source) => ?_
    apply List.filter_eq_nil_iff.mpr
    intro c hc hac
    apply hxs
    apply htied x hx c hc source hsource b hb
    apply TransCmp.eq_trans (OrientedCmp.eq_symm (eq_of_beq hac)) (eq_of_beq hab)

end Sources

/-! ### Findings of one file -/

/-- Every finding of a built-in rule is on the document that it looks at. -/
theorem Rule.file_of_mem_builtin {rule : Rule} (hrule : rule ∈ builtin) {d : Document}
    {page : Markup.Page} {f : Finding} (hf : f ∈ rule.findings d page) :
  f.location.file = d.file
  := by
  cases List.mem_append.mp hrule with
  | inl h =>
    obtain ⟨r, hr, rfl⟩ := List.mem_map.mp h
    obtain ⟨line, hquotes, -⟩ := quotes_of_mem_structuralRules hr hf
    rw [hquotes.location]
    rfl
  | inr h =>
    obtain ⟨r, -, rfl⟩ := List.mem_map.mp h
    obtain ⟨⟨number, line⟩, -, hf⟩ := List.mem_flatMap.mp hf
    obtain ⟨check, -, hf⟩ := List.mem_filterMap.mp hf
    obtain ⟨offset, -, rfl⟩ := Option.map_eq_some_iff.mp hf
    rfl

namespace Scanner

variable {s : Scanner} {read : String → Except ReadFailure String}

/-- Built-in rules report the path of a file relative to the root. -/
theorem file_of_mem_findings? (hrules : ∀ rule ∈ s.rules, rule ∈ Rule.builtin) {path : String}
    {f : Finding} (hf : f ∈ (s.findings? read path).getD []) :
  f.location.file = Path.relativeTo s.root path
  := by
  unfold findings? scanText at hf
  split at hf
  · split at hf
    · cases hf
    · split at hf
      · obtain ⟨rule, hrule, hf⟩ := List.mem_flatMap.mp hf
        apply Rule.file_of_mem_builtin (hrules rule hrule) hf
      · cases hf
  · cases hf

/-- Files have different reported paths, compared by their components. -/
def ReportedApart (s : Scanner) (paths : List String) : Prop :=
  ∀ p ∈ s.handled paths, ∀ q ∈ s.handled paths, p ≠ q →
    Path.components (Path.relativeTo s.root p) ≠ Path.components (Path.relativeTo s.root q)

/-- A bucket with the findings of some severities does not depend on the order of the files. -/
theorem bucket_eq_of_perm (hrules : ∀ rule ∈ s.rules, rule ∈ Rule.builtin) {xs ys : List String}
    (hperm : xs.Perm ys) (hapart : s.ReportedApart xs) {keep : Finding → Bool}
    {bucket bucket' : List Finding}
    (h : StableSort Finding.compare ((s.found read xs).filter keep) bucket)
    (h' : StableSort Finding.compare ((s.found read ys).filter keep) bucket') :
  bucket = bucket'
  := by
  rw [found, List.filter_flatMap] at h h'
  apply StableSort.eq_of_perm (hperm.filter s.handles) _ h h'
  intro p hp f hf q hq g hg htied
  have hcomponents := (Finding.compare_eq_iff.mp htied).1
  rw [file_of_mem_findings? hrules (List.mem_filter.mp hf).1,
    file_of_mem_findings? hrules (List.mem_filter.mp hg).1] at hcomponents
  by_cases hpq : p = q
  · apply hpq
  · exact absurd hcomponents (hapart p hp q hq hpq)

/-- The files that cannot be scanned. -/
def fails (s : Scanner) (read : String → Except ReadFailure String) (path : String) : Bool :=
  s.settings.enabled && s.handles path && (s.findings? read path).isNone

/-- The report names the listed files that cannot be scanned, in the order of the list. -/
theorem failed_scanFiles (paths : List String) :
  (s.scanFiles read paths).failed = paths.filter (s.fails read)
  := by
  cases h : s.settings.enabled with
  | true =>
    rw [(s.describes_scanFiles read h paths).failed, handled, List.filter_filter]
    congr 1
    funext path
    rw [fails, h, Bool.true_and, Bool.and_comm]
  | false => simp [scanFiles, fails, h, Report.empty]

/-- The report of a scan with built-in rules does not depend on the order of the files, if files
that are not the same have different reported paths: its buckets hold the same findings at the same
positions, it counts the same files, and it names those that fail in the order in which they are
listed. -/
theorem scanFiles_eq_of_perm (s : Scanner) (hrules : ∀ rule ∈ s.rules, rule ∈ Rule.builtin)
    (read : String → Except ReadFailure String) {xs ys : List String} (hperm : xs.Perm ys)
    (hapart : s.ReportedApart xs) :
  (s.scanFiles read ys).violations = (s.scanFiles read xs).violations
    ∧ (s.scanFiles read ys).warnings = (s.scanFiles read xs).warnings
    ∧ (s.scanFiles read ys).scanned = (s.scanFiles read xs).scanned
    ∧ ∃ fails : String → Bool, (s.scanFiles read xs).failed = xs.filter fails
        ∧ (s.scanFiles read ys).failed = ys.filter fails
  := by
  cases henabled : s.settings.enabled with
  | true =>
    have hx := s.describes_scanFiles read henabled xs
    have hy := s.describes_scanFiles read henabled ys
    refine ⟨?_, ?_, ?_, s.fails read, failed_scanFiles xs, failed_scanFiles ys⟩
    · rw [bucket_eq_of_perm hrules hperm hapart hx.violations hy.violations]
    · rw [bucket_eq_of_perm hrules hperm hapart hx.warnings hy.warnings]
    · rw [hx.scanned, hy.scanned]
      apply ((hperm.filter s.handles).countP_eq _).symm
  | false =>
    have hnone (paths : List String) : s.scanFiles read paths = .empty := by
      simp [scanFiles, henabled]
    refine ⟨?_, ?_, ?_, s.fails read, failed_scanFiles xs, failed_scanFiles ys⟩
    all_goals rw [hnone, hnone]

/-- Two files of which one is listed twice, another that cannot be read, and one without a reader,
listed the other way round.  The first component of `a/b.tsx` is less than that of `a-b.tsx`. -/
theorem scanFiles_eq_of_perm_five_paths :
  let s := builtin Markup.Grammar.parser (some "/p") .default
  let read : String → Except ReadFailure String := fun path =>
    if path = "/p/c.tsx" then .error .missing else .ok "const x = <img />;"
  let xs := ["/p/a-b.tsx", "/p/c.tsx", "/p/a/b.tsx", "/p/d.md", "/p/a-b.tsx"]
  (∀ rule ∈ s.rules, rule ∈ Rule.builtin) ∧ xs.Perm xs.reverse ∧ s.ReportedApart xs
    ∧ (s.scanFiles read xs.reverse).violations = (s.scanFiles read xs).violations
  := by
  intro s read xs
  have hrules : ∀ rule ∈ s.rules, rule ∈ Rule.builtin := fun rule h => (List.mem_filter.mp h).1
  have hperm : xs.Perm xs.reverse := xs.reverse_perm.symm
  have hapart : s.ReportedApart xs := by
    have hhandled : s.handled xs = ["/p/a-b.tsx", "/p/c.tsx", "/p/a/b.tsx", "/p/a-b.tsx"] := by
      decide +kernel
    unfold ReportedApart
    rw [hhandled]
    decide +kernel
  exact ⟨hrules, hperm, hapart, (scanFiles_eq_of_perm s hrules read hperm hapart).1⟩

end Scanner

end AccessAudit
