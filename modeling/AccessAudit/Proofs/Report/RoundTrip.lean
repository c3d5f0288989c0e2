import AccessAudit.Proofs.Json.Reading
import AccessAudit.Report.Json

/-!
# Reports read back

The JSON text of a report is read back as the same report: findings with all their fields in the
same order, the number of scanned files, and the files that failed.  The only thing asked for is
that lines, columns and the number of files fit into 64 bits; texts may hold anything.
-/

namespace AccessAudit

/-! ### Parts of records -/

namespace Json

theorem natural?_ofNat {n : Nat} (h : n < Nat.pow 2 64) :
  (ofNat n).natural? = some n
  := by
  have hfits : (n < Nat.pow 2 64) = True := eq_true h
  simp only [natural?, ofNat, hfits]
  rfl

/-- A list is read back if its members are. -/
theorem list?_array_map {α : Type} {encode : α → Json} {decode? : Json → Option α} {xs : List α}
    (h : ∀ x ∈ xs, decode? (encode x) = some x) :
  (Json.array (xs.map encode)).list? decode? = some xs
  := by
  rw [list?]
  induction xs with
  | nil => rfl
  | cons x xs ih =>
    have hrest := ih fun y hy => h y (List.mem_cons_of_mem x hy)
    rw [List.map_cons, List.mapM_cons, h x List.mem_cons_self, hrest]
    rfl

theorem Whole.array_map {α : Type} {encode : α → Json} (h : ∀ x, Whole (encode x)) (xs : List α) :
  Whole (.array (xs.map encode))
  := by
  apply Whole.array
  intro item hitem
  obtain ⟨x, -, rfl⟩ := List.mem_map.mp hitem
  apply h

end Json

@[simp]
theorem Severity.ofName?_name (s : Severity) :
  ofName? s.name = some s
  := by
  cases s <;> decide

/-! ### Places and labels -/

namespace Location

/-- A place whose numbers fit into 64 bits. -/
structure Fits (l : Location) : Prop where
  line : l.line < Nat.pow 2 64
  column : l.column < Nat.pow 2 64

theorem ofJson?_toJson {l : Location} (h : l.Fits) :
  ofJson? l.toJson = some l
  := by
  have hrecord : l.toJson.record? ["file", "line", "column"]
      = some [some (.string l.file), some (.ofNat l.line), some (.ofNat l.column)] := rfl
  simp only [ofJson?, hrecord, Option.bind_eq_bind, Option.bind_some, Json.string?,
    Json.natural?_ofNat h.line, Json.natural?_ofNat h.column]

theorem whole_toJson (l : Location) :
  l.toJson.Whole
  := by
  apply Json.Whole.object
  simp only [List.forall_mem_cons]
  exact ⟨.string _, .number _ _, .number _ _, List.forall_mem_nil _⟩

end Location

namespace Label

theorem ofJson?_toJson {l : Label} (h : l.location.Fits) :
  ofJson? l.toJson = some l
  := by
  have hrecord : l.toJson.record? ["location", "message"]
      = some [some l.location.toJson, some (.string l.message)] := rfl
  simp only [ofJson?, hrecord, Option.bind_eq_bind, Option.bind_some, Json.string?,
    Location.ofJson?_toJson h]

theorem whole_toJson (l : Label) :
  l.toJson.Whole
  := by
  apply Json.Whole.object
  simp only [List.forall_mem_cons]
  exact ⟨l.location.whole_toJson, .string _, List.forall_mem_nil _⟩

end Label

/-! ### Findings -/

namespace Finding

/-- A finding whose numbers fit into 64 bits. -/
structure Fits (f : Finding) : Prop where
  location : f.location.Fits
  labels : ∀ label ∈ f.labels, label.location.Fits

/-- A suggestion that is there as JSON. -/
def suggestionJson? (f : Finding) : Option Json :=
  f.suggestion.map suggestionToJson

/-- Labels as JSON, if there are any. -/
def labelsJson? (f : Finding) : Option Json :=
  if f.labels.isEmpty then none else some (.array (f.labels.map Label.toJson))

/-- The fields of a finding, of which the last two are left out if they are empty. -/
theorem record?_toJson (f : Finding) :
  f.toJson.record? ["rule", "severity", "location", "message", "wcag_ref", "code", "suggestion",
      "labels"]
    = some [some (.string f.rule), some (.string f.severity.name), some f.location.toJson,
        some (.string f.message), some (.string f.criterion), some (.string f.code),
        f.suggestionJson?, f.labelsJson?]
  := by
  unfold toJson suggestionJson? labelsJson?
  cases f.suggestion with
  | none => cases f.labels <;> rfl
  | some text => cases f.labels <;> rfl

@[simp]
theorem optionalSuggestion?_suggestionJson? (f : Finding) :
  optionalSuggestion? f.suggestionJson? = some f.suggestion
  := by
  unfold suggestionJson?
  cases f.suggestion with
  | none => rfl
  | some text => rfl

/-- Labels are read back, also if they are left out. -/
theorem optionalLabels?_labelsJson? {f : Finding} (h : ∀ label ∈ f.labels, label.location.Fits) :
  optionalLabels? f.labelsJson? = some f.labels
  := by
  unfold labelsJson?
  split
  · rename_i hempty
    rw [List.isEmpty_iff.mp hempty]
    rfl
  · apply Json.list?_array_map fun label hlabel => Label.ofJson?_toJson (h label hlabel)

theorem ofJson?_toJson {f : Finding} (h : f.Fits) :
  ofJson? f.toJson = some f
  := by
  simp [ofJson?, record?_toJson, Json.string?, Json.variant?, Location.ofJson?_toJson h.location,
    optionalLabels?_labelsJson? h.labels]

/-- The numbers of a finding are whole. -/
theorem whole_toJson (f : Finding) :
  f.toJson.Whole
  := by
  apply Json.Whole.object
  simp only [List.forall_mem_append, List.forall_mem_cons]
  refine ⟨⟨⟨.string _, .string _, f.location.whole_toJson, .string _, .string _, .string _,
    List.forall_mem_nil _⟩, ?_⟩, ?_⟩
  · split
    · simp only [List.forall_mem_singleton]
      apply Json.Whole.object
      simp only [List.forall_mem_singleton]
      apply Json.Whole.string
    · apply List.forall_mem_nil
  · split
    · apply List.forall_mem_nil
    · simp only [List.forall_mem_singleton]
      apply Json.Whole.array_map Label.whole_toJson

end Finding

/-! ### Reports -/

namespace Report

/-- A report whose numbers fit into 64 bits. -/
structure Fits (r : Report) : Prop where
  violations : ∀ f ∈ r.violations, f.Fits
  warnings : ∀ f ∈ r.warnings, f.Fits
  scanned : r.scanned < Nat.pow 2 64

/-- Failed files as JSON, if there are any. -/
def failedJson? (r : Report) : Option Json :=
  if r.failed.isEmpty then none else some (.array (r.failed.map Json.string))

theorem record?_toJson (r : Report) :
  r.toJson.record? ["violations", "warnings", "files_scanned", "files_failed"]
    = some [some (.array (r.violations.map Finding.toJson)),
        some (.array (r.warnings.map Finding.toJson)), some (.ofNat r.scanned), r.failedJson?]
  := by
  unfold toJson failedJson?
  cases r.failed <;> rfl

/-- Failed files are read back, also if they are left out. -/
@[simp]
theorem optionalFiles?_failedJson? (r : Report) :
  optionalFiles? r.failedJson? = some r.failed
  := by
  have hpaths : ∀ path ∈ r.failed, (Json.string path).string? = some path := fun _ _ => rfl
  unfold failedJson?
  split
  · rename_i hempty
    rw [List.isEmpty_iff.mp hempty]
    rfl
  · apply Json.list?_array_map hpaths

theorem ofJson?_toJson {r : Report} (h : r.Fits) :
  ofJson? r.toJson = some r
  := by
  have hviolations := Json.list?_array_map fun f hf => Finding.ofJson?_toJson (h.violations f hf)
  have hwarnings := Json.list?_array_map fun f hf => Finding.ofJson?_toJson (h.warnings f hf)
  simp [ofJson?, record?_toJson, hviolations, hwarnings, Json.natural?_ofNat h.scanned]

/-- The numbers of a report are whole. -/
theorem whole_toJson (r : Report) :
  r.toJson.Whole
  := by
  apply Json.Whole.object
  simp only [List.forall_mem_append, List.forall_mem_cons]
  refine ⟨⟨.array_map Finding.whole_toJson _, .array_map Finding.whole_toJson _, .number _ _,
    List.forall_mem_nil _⟩, ?_⟩
  split
  · apply List.forall_mem_nil
  · simp only [List.forall_mem_singleton]
    apply Json.Whole.array_map Json.Whole.string

/-- A report whose numbers fit into 64 bits is read back from its JSON text, with the same findings
in the same order, the same number of scanned files and the same failed files. -/
theorem read?_jsonText {r : Report} (h : r.Fits) :
  read? r.jsonText = some r
  := by
  rw [read?, jsonText, r.whole_toJson.read?_pretty, Option.bind_some]
  apply ofJson?_toJson h

/-- A report with the largest numbers, with quotes, a control character and letters of other scripts
in its texts, and with a warning among its violations. -/
def extreme : Report where
  violations :=
    [{ rule := "a\"b\\c", severity := .low
       location := ⟨"s/ü\n.tsx", 18446744073709551615, 18446744073709551615⟩
       message := "\x00\x1f\x7f", criterion := "", code := "\t<p/>\r", suggestion := some "\u2028"
       labels := [⟨⟨"", 0, 18446744073709551615⟩, "😀"⟩] }]
  warnings :=
    [{ rule := "", severity := .critical, location := ⟨"/", 0, 0⟩, message := "\x08\x0c"
       criterion := "[],:" }]
  scanned := 18446744073709551615
  failed := ["a b.tsx", ""]

/-- The report of extremes is read back. -/
theorem read?_jsonText_extreme :
  extreme.Fits ∧ read? extreme.jsonText = some extreme
  := by
  have h : extreme.Fits := by
    refine ⟨?_, ?_, by decide⟩
    · simp only [extreme, List.forall_mem_singleton]
      refine ⟨⟨by decide, by decide⟩, ?_⟩
      simp only [List.forall_mem_singleton]
      exact ⟨by decide, by decide⟩
    · simp only [extreme, List.forall_mem_singleton]
      exact ⟨⟨by decide, by decide⟩, List.forall_mem_nil _⟩
  exact ⟨h, read?_jsonText h⟩

end Report

end AccessAudit
