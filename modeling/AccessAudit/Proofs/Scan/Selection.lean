import AccessAudit.Markup.Grammar.Parser
import AccessAudit.Proofs.Scan.Description

/-!
# Selecting rules

Every built-in rule signs its findings with its own id.  So it makes no difference whether rules are
left out of a scan or their findings are left out of its result: a scan with selected rules finds
what the scan with all rules finds, less the findings of the other rules.
-/

namespace AccessAudit

/-! ### Findings carry the id of their rule -/

namespace Rule

/-- A rule whose findings all carry its id. -/
def Signs (rule : Rule) : Prop :=
  ∀ d page, ∀ f ∈ rule.findings d page, f.rule = rule.id

/-- A line rule signs its findings. -/
theorem signs_ofLine (r : LineRule) :
  (ofLine r).Signs
  := by
  intro d page f hf
  obtain ⟨⟨number, line⟩, -, hf⟩ := List.mem_flatMap.mp hf
  obtain ⟨check, -, hf⟩ := List.mem_filterMap.mp hf
  obtain ⟨offset, -, rfl⟩ := Option.map_eq_some_iff.mp hf
  rfl

/-- A structural rule that gives a finding for each of some elements signs what these findings
carry. -/
theorem signs_of_map {r : StructuralRule} {select : Markup.Element → Bool}
    {finding : Document → Markup.Element → Finding}
    (hr : ∀ d page, r.findings d page = (page.elements.filter select).map (finding d))
    (hf : ∀ d e, (finding d e).rule = r.id) :
  (ofStructural r).Signs
  := by
  intro d page f h
  change f ∈ r.findings d page at h
  rw [hr] at h
  obtain ⟨e, -, rfl⟩ := List.mem_map.mp h
  apply hf d e

/-- The rule on headings signs its findings. -/
theorem signs_headingStructure :
  (ofStructural headingStructure).Signs
  := by
  intro d page f h
  simp only [ofStructural, headingStructure] at h
  split at h
  · cases h
  · obtain ⟨issue, -, rfl⟩ := List.mem_map.mp h
    rfl

/-- The rule on landmarks signs its finding. -/
theorem signs_landmarkRegions :
  (ofStructural landmarkRegions).Signs
  := by
  intro d page f h
  simp only [ofStructural, landmarkRegions] at h
  split at h
  · cases h
  · rw [List.mem_singleton] at h
    rw [h]
    rfl

/-- The rule on contrast signs its findings. -/
theorem signs_colorContrast :
  (ofStructural colorContrast).Signs
  := by
  intro d page f h
  obtain ⟨e, -, h⟩ := List.mem_filterMap.mp h
  simp only [contrastFinding?, Option.bind_eq_bind, Option.bind_eq_some_iff] at h
  obtain ⟨classes, -, outcome, -, h⟩ := h
  split at h
  · cases h
  · cases h
    rfl

/-- Every built-in rule signs its findings. -/
theorem signs_of_mem_builtin {rule : Rule} (h : rule ∈ builtin) :
  rule.Signs
  := by
  cases List.mem_append.mp h with
  | inl h =>
    obtain ⟨r, hr, rfl⟩ := List.mem_map.mp h
    simp only [structuralRules, List.mem_cons, List.not_mem_nil, or_false] at hr
    obtain rfl | rfl | rfl | rfl | rfl | rfl | rfl := hr
    · exact signs_of_map (fun _ _ => rfl) fun _ _ => rfl
    · exact signs_of_map (fun _ _ => rfl) fun _ _ => rfl
    · exact signs_of_map (fun _ _ => rfl) fun _ _ => rfl
    · exact signs_of_map (fun _ _ => rfl) fun _ _ => rfl
    · apply signs_headingStructure
    · apply signs_landmarkRegions
    · apply signs_colorContrast
  | inr h =>
    obtain ⟨r, -, rfl⟩ := List.mem_map.mp h
    apply signs_ofLine r

end Rule

/-! ### Scans with selected rules -/

namespace Scanner

/-- Whether a finding is of a selected rule. -/
def isSelected (ids : List String) (f : Finding) : Bool :=
  ids.contains f.rule

/-- Of rules that sign their findings, the selected ones find what all of them find under a selected
id. -/
theorem flatMap_findings_selected (ids : List String) (d : Document) (page : Markup.Page)
    {rules : List Rule} (signed : ∀ rule ∈ rules, rule.Signs) :
  (rules.filter fun rule => ids.contains rule.id).flatMap (fun rule => rule.findings d page)
    = (rules.flatMap fun rule => rule.findings d page).filter (isSelected ids)
  := by
  induction rules with
  | nil => rfl
  | cons rule rules ih =>
    have hrest := ih fun r hr => signed r (List.mem_cons_of_mem _ hr)
    -- All findings of the first rule carry its id, so they are kept or dropped together.
    have hrule : ∀ f ∈ rule.findings d page, isSelected ids f = ids.contains rule.id := by
      intro f hf
      rw [isSelected, signed rule List.mem_cons_self d page f hf]
    rw [List.filter_cons, List.flatMap_cons, List.filter_append, ← hrest]
    cases hc : ids.contains rule.id with
    | true =>
      have hkeep : (rule.findings d page).filter (isSelected ids) = rule.findings d page :=
        List.filter_eq_self.mpr fun f hf => (hrule f hf).trans hc
      rw [if_pos rfl, List.flatMap_cons, hkeep]
    | false =>
      have hdrop : (rule.findings d page).filter (isSelected ids) = [] :=
        List.filter_eq_nil_iff.mpr fun f hf => by rw [hrule f hf, hc]; exact Bool.false_ne_true
      rw [if_neg Bool.false_ne_true, hdrop, List.nil_append]

/-- The scanner with those built-in rules that are selected by their ids; no ids select all. -/
def selecting (root : Option String) (readers : List Markup.Reader) (settings : Settings)
    (ids : List String) : Scanner :=
  of root readers Rule.builtin { settings with rules := ids }

variable {root : Option String} {readers : List Markup.Reader} {settings : Settings}
variable {ids : List String}

/-- Selected rules find on a page what all rules find on it under a selected id. -/
theorem check_selecting (h : ids ≠ []) (path text : String) (page : Markup.Page) :
  (selecting root readers settings ids).check path text page
    = ((selecting root readers settings []).check path text page).filter (isSelected ids)
  := by
  have hids : ids.isEmpty = false := by simpa using h
  have hall : Rule.builtin.filter (fun _ => true) = Rule.builtin :=
    List.filter_eq_self.mpr (by simp)
  simp only [check, selecting, of, Settings.enables, hids, List.isEmpty_nil, Bool.true_or,
    Bool.false_or, hall]
  apply flatMap_findings_selected
  intro rule hrule
  apply Rule.signs_of_mem_builtin hrule

/-- Selecting rules keeps the failures of a text, and of its findings those that carry a selected
id. -/
theorem scanText_selecting (h : ids ≠ []) (path text : String) :
  (selecting root readers settings ids).scanText path text
    = ((selecting root readers settings []).scanText path text).map
        (List.filter (isSelected ids))
  := by
  have hreaders (ids : List String) : (selecting root readers settings ids).readers = readers := rfl
  rw [scanText, scanText, hreaders, hreaders]
  cases Markup.Reader.find? readers path with
  | none => rfl
  | some reader =>
    cases hpage : reader.read path text with
    | error error =>
      simp only [hpage]
      rfl
    | ok page =>
      simp only [hpage, check_selecting h]
      rfl

/-- Selecting rules keeps which files can be scanned, and of their findings those that carry a
selected id. -/
theorem findings?_selecting (h : ids ≠ []) (read : String → Except ReadFailure String)
    (path : String) :
  (selecting root readers settings ids).findings? read path
    = ((selecting root readers settings []).findings? read path).map (List.filter (isSelected ids))
  := by
  unfold findings?
  cases read path with
  | error failure => rfl
  | ok text =>
    simp only [scanText_selecting h]
    cases (selecting root readers settings []).scanText path text <;> rfl

/-- The findings on all files are selected by the ids that they carry. -/
theorem found_selecting (h : ids ≠ []) (read : String → Except ReadFailure String)
    (paths : List String) :
  (selecting root readers settings ids).found read paths
    = ((selecting root readers settings []).found read paths).filter (isSelected ids)
  := by
  rw [found, found, List.filter_flatMap]
  congr 1
  funext path
  rw [findings?_selecting h]
  cases (selecting root readers settings []).findings? read path <;> rfl

/-- The report of a scan that is left when findings of other rules are left out. -/
def selectedReport (ids : List String) (r : Report) : Report where
  violations := r.violations.filter (isSelected ids)
  warnings := r.warnings.filter (isSelected ids)
  scanned := r.scanned
  failed := r.failed

/-- What the report with all rules holds under a selected id describes the scan with the selected
rules. -/
theorem Describes.selecting (h : ids ≠ []) {read : String → Except ReadFailure String}
    {paths : List String} {r : Report}
    (hr : (selecting root readers settings []).Describes read paths r) :
  (Scanner.selecting root readers settings ids).Describes read paths (selectedReport ids r)
  := by
  have hhandled : (Scanner.selecting root readers settings ids).handled paths
      = (Scanner.selecting root readers settings []).handled paths := rfl
  constructor
  · simp only [hhandled, findings?_selecting h, Option.isNone_map]
    apply hr.failed
  · simp only [hhandled, findings?_selecting h, Option.isSome_map]
    apply hr.scanned
  · rw [found_selecting h, List.filter_filter]
    simp only [Bool.and_comm _ (isSelected ids _)]
    rw [← List.filter_filter]
    apply hr.violations.filter (isSelected ids)
  · rw [found_selecting h, List.filter_filter]
    simp only [Bool.and_comm _ (isSelected ids _)]
    rw [← List.filter_filter]
    apply hr.warnings.filter (isSelected ids)

/-- The report with selected rules is what the report with all rules holds under a selected id. -/
theorem scanFiles_selecting (h : ids ≠ []) (read : String → Except ReadFailure String)
    (paths : List String) :
  (selecting root readers settings ids).scanFiles read paths
    = selectedReport ids ((selecting root readers settings []).scanFiles read paths)
  := by
  cases henabled : settings.enabled with
  | true =>
    have hall := (selecting root readers settings []).describes_scanFiles read henabled paths
    have hids := (selecting root readers settings ids).describes_scanFiles read henabled paths
    apply hids.unique (hall.selecting h)
  | false =>
    have hnone (ids : List String) :
        (selecting root readers settings ids).scanFiles read paths = .empty := by
      simp [scanFiles, selecting, of, henabled]
    rw [hnone, hnone]
    rfl

/-- Selecting rules is leaving findings out.  With a selection of ids, a text cannot be scanned
exactly if it cannot be scanned with all rules, and otherwise its findings are those of all rules
that carry a selected id, in the same order.  A scan of files counts and names the same files, and
each bucket of its report holds what that of all rules holds under a selected id. -/
theorem selecting_eq_filter (root : Option String) (readers : List Markup.Reader)
    (settings : Settings) {ids : List String} (h : ids ≠ []) :
  let full := selecting root readers settings []
  let selected := selecting root readers settings ids
  (∀ path text,
    selected.scanText path text = (full.scanText path text).map
      (List.filter fun f => ids.contains f.rule))
  ∧ ∀ read paths,
    (selected.scanFiles read paths).scanned = (full.scanFiles read paths).scanned
    ∧ (selected.scanFiles read paths).failed = (full.scanFiles read paths).failed
    ∧ (selected.scanFiles read paths).violations
        = (full.scanFiles read paths).violations.filter (fun f => ids.contains f.rule)
    ∧ (selected.scanFiles read paths).warnings
        = (full.scanFiles read paths).warnings.filter (fun f => ids.contains f.rule)
  := by
  intro full selected
  constructor
  · apply scanText_selecting h
  · intro read paths
    rw [scanFiles_selecting h]
    exact ⟨rfl, rfl, rfl, rfl⟩

/-- The findings of two selected rules, one of them twice, and of an unknown one. -/
theorem selecting_eq_filter_three_ids :
  let readers := Markup.Reader.builtin Markup.Grammar.parser
  let read : String → Except ReadFailure String := fun _ => .ok "const x = <img />;"
  let ids := ["image-alt", "no-such-rule", "alt-text", "image-alt"]
  ids ≠ []
    ∧ ((selecting none readers .default ids).scanFiles read ["a.tsx"]).violations
      = ((selecting none readers .default []).scanFiles read
          ["a.tsx"]).violations.filter (fun f => ids.contains f.rule)
  := by
  intro readers read ids
  have h : ids ≠ [] := by decide
  exact ⟨h, ((selecting_eq_filter none readers .default h).2 read ["a.tsx"]).2.2.1⟩

end Scanner

end AccessAudit
