import AccessAudit.Command.Run
import AccessAudit.Markup.Grammar.Parser
import AccessAudit.Proofs.Scan.Description
import AccessAudit.Proofs.Text.Lines

/-!
# The verdict of a scan

When a scan of listed files fails the run: exactly if the settings ask for it and a rule that is to
run has a finding of high or critical severity on a listed file that can be read as markup.  Files
without a reader, files that cannot be read, wrong syntax, warnings and ids of no rule do not count.
-/

namespace AccessAudit

/-! ### Violations of a report -/

namespace Markup.Reader

variable {parser : Parser} {path : String}

/-- No path is read in both dialects. -/
theorem not_handles_jsx_of_tsx (h : (ofDialect parser .tsx).handles path = true) :
  (ofDialect parser .jsx).handles path = false
  := by
  unfold handles at h ⊢
  cases hextension : Path.extension? path with
  | none => rfl
  | some extension =>
    rw [hextension] at h
    simp only [ofDialect, Option.any_some, List.any_cons, List.any_nil, Bool.or_false,
      Text.sameLetters, beq_iff_eq] at h ⊢
    rw [h]
    decide

/-- The reader for a path is the one that reads it, for there is only one. -/
theorem find?_builtin_eq_some_iff {reader : Reader} :
  find? (builtin parser) path = some reader
    ↔ reader ∈ builtin parser ∧ reader.handles path = true
  := by
  constructor
  · intro h
    exact ⟨List.mem_of_find?_eq_some h, by simpa using List.find?_some h⟩
  · rintro ⟨hmem, hhandles⟩
    simp only [builtin, List.mem_cons, List.not_mem_nil, or_false] at hmem
    obtain rfl | rfl := hmem
    · simp [find?, builtin, hhandles]
    · cases htsx : (ofDialect parser .tsx).handles path with
      | true =>
        rw [not_handles_jsx_of_tsx htsx] at hhandles
        cases hhandles
      | false => simp [find?, builtin, htsx, hhandles]

end Markup.Reader

namespace Scanner

variable {s : Scanner} {read : String → Except ReadFailure String}

/-- Files without a reader make no difference to a report. -/
@[simp]
theorem scanFiles_handled (paths : List String) :
  s.scanFiles read (s.handled paths) = s.scanFiles read paths
  := by
  cases h : s.settings.enabled with
  | true =>
    have hhandled : s.handled (s.handled paths) = s.handled paths := by
      simp [handled, List.filter_filter]
    obtain ⟨hfailed, hscanned, hviolations, hwarnings⟩ :=
      s.describes_scanFiles read h (s.handled paths)
    rw [found, hhandled] at hviolations hwarnings
    rw [hhandled] at hfailed hscanned
    apply Describes.unique ⟨hfailed, hscanned, hviolations, hwarnings⟩
      (s.describes_scanFiles read h paths)
  | false => simp [scanFiles, h]

/-- The findings on a file that can be read as markup are those of the rules on its page. -/
theorem mem_findings?_iff {path : String} {f : Finding} :
  f ∈ (s.findings? read path).getD []
    ↔ ∃ reader, Markup.Reader.find? s.readers path = some reader
        ∧ ∃ text, read path = .ok text ∧ ∃ page, reader.read path text = .ok page
          ∧ ∃ rule ∈ s.rules, f ∈ rule.findings (Document.of s.root path text) page
  := by
  unfold findings? scanText
  cases hread : read path with
  | error failure => simp
  | ok text =>
    cases hreader : Markup.Reader.find? s.readers path with
    | none => simp [Except.toOption]
    | some reader =>
      cases hpage : reader.read path text with
      | error error => simp [Except.toOption, hpage]
      | ok page => simp [Except.toOption, hpage, check]

/-- A report has violations exactly if a rule has a finding of high or critical severity on a file
that can be read as markup. -/
theorem hasViolations_scanFiles (h : s.settings.enabled = true) (paths : List String) :
  (s.scanFiles read paths).hasViolations = true
    ↔ ∃ path ∈ paths, ∃ f ∈ (s.findings? read path).getD [],
        f.severity = .high ∨ f.severity = .critical
  := by
  have hperm := (s.describes_scanFiles read h paths).violations.perm
  have hexists : (s.scanFiles read paths).hasViolations = true
      ↔ ∃ f, f ∈ (s.scanFiles read paths).violations := by
    rw [Report.hasViolations, Bool.not_eq_true', List.isEmpty_eq_false_iff_exists_mem]
  rw [hexists]
  constructor
  · rintro ⟨f, hf⟩
    obtain ⟨hfound, hsevere⟩ := List.mem_filter.mp (hperm.mem_iff.mp hf)
    obtain ⟨path, hpath, hf⟩ := List.mem_flatMap.mp hfound
    exact ⟨path, (List.mem_filter.mp hpath).1, f, hf, of_decide_eq_true hsevere⟩
  · rintro ⟨path, hpath, f, hf, hsevere⟩
    refine ⟨f, hperm.mem_iff.mpr (List.mem_filter.mpr ⟨?_, decide_eq_true hsevere⟩)⟩
    -- A file with a finding has a reader.
    obtain ⟨reader, hreader, -⟩ := mem_findings?_iff.mp hf
    have hhandles : s.handles path = true := by rw [handles, hreader]; rfl
    apply List.mem_flatMap.mpr ⟨path, List.mem_filter.mpr ⟨hpath, hhandles⟩, hf⟩

end Scanner

namespace Command

/-! ### Rules to run -/

/-- An id that stands between the commas of a text, without the blanks around it. -/
def Lists (text id : String) : Prop :=
  id ≠ "" ∧ ∃ piece ∈ text.toList.splitOn ',', Text.trim piece = id.toList

/-- The ids of a text are those that stand between its commas. -/
@[simp]
theorem mem_ruleFilter_iff {text id : String} :
  id ∈ ruleFilter text ↔ Lists text id
  := by
  simp only [ruleFilter, Text.pieces_eq_splitOnP, ← List.splitOn_eq_splitOnP]
  constructor
  · intro h
    obtain ⟨chars, hchars, rfl⟩ := List.mem_map.mp h
    obtain ⟨hmem, hne⟩ := List.mem_filter.mp hchars
    obtain ⟨piece, hpiece, rfl⟩ := List.mem_map.mp hmem
    refine ⟨?_, piece, hpiece, String.toList_ofList.symm⟩
    intro hempty
    rw [String.ofList_eq_empty_iff] at hempty
    rw [hempty] at hne
    cases hne
  · rintro ⟨hne, piece, hpiece, htrim⟩
    refine List.mem_map.mpr ⟨id.toList, List.mem_filter.mpr ⟨?_, ?_⟩, String.ofList_toList⟩
    · apply List.mem_map.mpr ⟨piece, hpiece, htrim⟩
    · simpa using hne

/-- A rule that a scan runs.  If it asks for rules, these are the listed ones, and else those of the
settings; if there are none of them, all rules are run. -/
def ScanRequest.Runs (request : ScanRequest) (settings : Settings) (rule : Rule) : Prop :=
  match request.rules with
  | some text => (∀ id, ¬Lists text id) ∨ Lists text rule.id
  | none => settings.rules = [] ∨ rule.id ∈ settings.rules

/-- The settings of a scan enable the rules that it runs. -/
theorem ScanRequest.enables_applyTo_iff {request : ScanRequest} {settings : Settings}
    {rule : Rule} :
  (request.applyTo settings).enables rule.id = true ↔ request.Runs settings rule
  := by
  unfold applyTo Runs
  cases request.rules with
  | none => simp [Settings.enables]
  | some text =>
    simp only [Settings.enables, Bool.or_eq_true, List.isEmpty_iff, List.contains_iff_mem,
      mem_ruleFilter_iff, List.eq_nil_iff_forall_not_mem]

/-! ### Verdicts -/

/-- A scan whose rules have a finding of high or critical severity on the file at a path, which is
read in one of the dialects. -/
def ScanRequest.FindsViolation (parser : Markup.Parser) (request : ScanRequest) (fs : FileSystem)
    (settings : Settings) (path : String) : Prop :=
  ∃ reader ∈ Markup.Reader.builtin parser, reader.handles path = true
    ∧ ∃ text, fs.read path = .ok text ∧ ∃ page, reader.read path text = .ok page
      ∧ ∃ rule ∈ Rule.builtin, request.Runs settings rule
        ∧ ∃ f ∈ rule.findings (Document.of request.root path text) page,
            f.severity = .high ∨ f.severity = .critical

/-- The scanner of a request. -/
def ScanRequest.scanner (parser : Markup.Parser) (request : ScanRequest) (settings : Settings) :
    Scanner :=
  Scanner.builtin parser (some request.root) (request.applyTo settings)

@[simp]
theorem ScanRequest.enabled_applyTo (request : ScanRequest) (settings : Settings) :
  (request.applyTo settings).enabled = settings.enabled
  := by
  unfold applyTo
  split <;> rfl

@[simp]
theorem ScanRequest.failLevel_applyTo (request : ScanRequest) (settings : Settings) :
  (request.applyTo settings).failLevel = settings.failLevel
  := by
  unfold applyTo
  split <;> rfl

/-- The findings of the scanner of a request are those of the rules that it runs. -/
theorem ScanRequest.findsViolation_iff {parser : Markup.Parser} {request : ScanRequest}
    {fs : FileSystem} {settings : Settings} {path : String} :
  (∃ f ∈ ((scanner parser request settings).findings? fs.read path).getD [],
      f.severity = .high ∨ f.severity = .critical)
    ↔ FindsViolation parser request fs settings path
  := by
  simp only [Scanner.mem_findings?_iff]
  constructor
  · rintro ⟨f, ⟨reader, hreader, text, htext, page, hpage, rule, hrule, hf⟩, hsevere⟩
    obtain ⟨hmem, hhandles⟩ := Markup.Reader.find?_builtin_eq_some_iff.mp hreader
    obtain ⟨hrule, henables⟩ := List.mem_filter.mp hrule
    exact ⟨reader, hmem, hhandles, text, htext, page, hpage, rule, hrule,
      enables_applyTo_iff.mp henables, f, hf, hsevere⟩
  · rintro ⟨reader, hmem, hhandles, text, htext, page, hpage, rule, hrule, hruns, f, hf, hsevere⟩
    have hreader := Markup.Reader.find?_builtin_eq_some_iff.mpr ⟨hmem, hhandles⟩
    have hrule : rule ∈ (scanner parser request settings).rules :=
      List.mem_filter.mpr ⟨hrule, enables_applyTo_iff.mpr hruns⟩
    exact ⟨f, ⟨reader, hreader, text, htext, page, hpage, rule, hrule, hf⟩, hsevere⟩

theorem ScanRequest.run_of_not_enabled (parser : Markup.Parser) (request : ScanRequest)
    (fs : FileSystem) {settings : Settings} (h : settings.enabled = false) :
  run parser request fs settings = .ok ⟨.empty, false, false⟩
  := by
  simp [run, h]

theorem ScanRequest.run_of_no_files (parser : Markup.Parser) {request : ScanRequest}
    (hall : request.all = false) (fs : FileSystem) {settings : Settings}
    (h : settings.enabled = true) (hfiles : request.files = []) :
  run parser request fs settings = .error .noFiles
  := by
  simp [run, paths, h, hall, hfiles]

/-- A scan of listed files reports on them. -/
theorem ScanRequest.run_of_files (parser : Markup.Parser) {request : ScanRequest}
    (hall : request.all = false) (fs : FileSystem) {settings : Settings}
    (h : settings.enabled = true) (hfiles : request.files ≠ []) :
  run parser request fs settings = .ok
    ⟨(scanner parser request settings).scanFiles fs.read request.files,
      settings.failsOnViolations, true⟩
  := by
  rw [← Scanner.scanFiles_handled]
  simp [run, paths, h, hall, hfiles, scanner, Settings.failsOnViolations, Scanner.handled]

/-- The verdict of a scan of listed files, with any parser.  If the settings say not to scan, the
report is empty and the run does not fail.  Otherwise it is an error to list no files, and the run
fails exactly if the settings say that violations fail it and a rule that is to run finds a
violation on a listed file that is read as markup. -/
theorem ScanRequest.shouldFail_run (parser : Markup.Parser) (request : ScanRequest)
    (hall : request.all = false) (fs : FileSystem) (settings : Settings) :
  (settings.enabled = false →
    ∃ o, run parser request fs settings = .ok o ∧ o.report = .empty ∧ o.shouldFail = false)
  ∧ (settings.enabled = true → request.files = [] →
    run parser request fs settings = .error .noFiles)
  ∧ (settings.enabled = true → request.files ≠ [] →
    ∃ o, run parser request fs settings = .ok o
      ∧ (o.shouldFail = true ↔ settings.failLevel = .error
          ∧ ∃ path ∈ request.files, FindsViolation parser request fs settings path))
  := by
  refine ⟨fun h => ?_, fun h => run_of_no_files parser hall fs h, fun h hfiles => ?_⟩
  · exact ⟨_, request.run_of_not_enabled parser fs h, rfl, rfl⟩
  refine ⟨_, run_of_files parser hall fs h hfiles, ?_⟩
  have henabled : (scanner parser request settings).settings.enabled = true :=
    (enabled_applyTo request settings).trans h
  simp only [ScanOutcome.shouldFail, Bool.and_eq_true, Scanner.hasViolations_scanFiles henabled,
    findsViolation_iff, Settings.failsOnViolations, beq_iff_eq]

/-- An image without a text, in a file listed beside one without a reader, fails the run of a scan
that asks for the rule on images and for an unknown one. -/
theorem ScanRequest.shouldFail_run_image :
  let request : ScanRequest :=
    ⟨["a.md", "a.tsx"], false, ".", .text, some " image-alt ,, no-such-rule", []⟩
  let fs : FileSystem := ⟨.directory [("a.tsx", .file (some "const x = <img />;"))], []⟩
  let settings : Settings := { Settings.default with failLevel := .error }
  request.all = false
    ∧ ∃ o, run Markup.Grammar.parser request fs settings = .ok o ∧ o.shouldFail = true
  := by
  intro request fs settings
  have hruns : request.Runs settings (Rule.ofStructural Rule.imageAlt) := by
    apply enables_applyTo_iff.mp
    decide +kernel
  have himage : Rule.imageAlt ∈ Rule.structuralRules := by simp [Rule.structuralRules]
  let reader := Markup.Reader.ofDialect Markup.Grammar.parser .tsx
  have hpage : ((reader.read "a.tsx" "const x = <img />;").toOption.any fun page =>
      (Rule.imageAlt.findings (Document.of "." "a.tsx" "const x = <img />;") page).any fun f =>
        f.severity = .critical) = true := by
    decide +kernel
  obtain ⟨page, hpage, hfinding⟩ := (Option.any_eq_true _ _).mp hpage
  obtain ⟨f, hf, hsevere⟩ := List.any_eq_true.mp hfinding
  have hread : reader.read "a.tsx" "const x = <img />;" = .ok page := by
    cases h : reader.read "a.tsx" "const x = <img />;" with
    | ok page' =>
      rw [h] at hpage
      cases hpage
      rfl
    | error error =>
      rw [h] at hpage
      cases hpage
  have hfinds : FindsViolation Markup.Grammar.parser request fs settings "a.tsx" :=
    ⟨reader, List.mem_cons_self, by decide +kernel, "const x = <img />;", rfl, page, hread,
      .ofStructural Rule.imageAlt, List.mem_append_left _ (List.mem_map_of_mem himage), hruns,
      f, hf, .inr (of_decide_eq_true hsevere)⟩
  obtain ⟨o, hrun, hverdict⟩ :=
    (shouldFail_run Markup.Grammar.parser request rfl fs settings).2.2 rfl (by decide)
  exact ⟨rfl, o, hrun, hverdict.mpr ⟨rfl, "a.tsx", by decide, hfinds⟩⟩

end Command

end AccessAudit
