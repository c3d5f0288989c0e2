import AccessAudit.Proofs.Json.PlainData
import AccessAudit.Settings.File
import Mathlib.Data.Finset.Insert

/-!
# Settings field by field

The section of a manifest gives some fields of the settings, in any order and among members with
other names.  A given field is read as its value and every other field has its default, whichever
fields are given.  A single value of the wrong kind makes the section unreadable.
-/

namespace AccessAudit

namespace FailLevel

@[simp]
theorem ofName?_name (level : FailLevel) :
  ofName? level.name = some level
  := by
  cases level <;> rfl

theorem ofName?_eq_none {text : String} (h : ∀ level : FailLevel, level.name ≠ text) :
  ofName? text = none
  := by
  simp [ofName?, h]

end FailLevel

/-- A field that is either missing or has a value that can be read. -/
theorem fieldOr_ite {α : Type} {default x : α} {read : Data → Option α} {value : Json}
    (h : read (.ofJson value) = some x) (given : Prop) [Decidable given] :
  fieldOr default read ((if given then some value else none).map .ofJson)
    = some (if given then x else default)
  := by
  split
  · exact h
  · rfl

namespace Settings

/-! ### Fields -/

/-- A field that the section of a manifest can give. -/
inductive Field where
  | enabled
  | severity
  | rules
  | root
  | exclude
  | respectGitignore
  deriving DecidableEq

namespace Field

/-- The name of a field. -/
def name : Field → String
  | enabled => "enabled"
  | severity => "severity"
  | rules => "rules"
  | root => "root"
  | exclude => "exclude"
  | respectGitignore => "respect_gitignore"

/-- The value that stands for a field of some settings. -/
def value (s : Settings) : Field → Json
  | enabled => .bool s.enabled
  | severity => .string s.failLevel.name
  | rules => .array (s.rules.map .string)
  | root => .string s.scope.root
  | exclude => .array (s.scope.exclude.map .string)
  | respectGitignore => .bool s.scope.respectGitignore

/-- The fields that stand in the section itself. -/
def ofSection : List Field :=
  [enabled, severity, rules]

/-- The fields that stand in an object of their own. -/
def ofScope : List Field :=
  [root, exclude, respectGitignore]

theorem mem_ofSection_iff {field : Field} :
  field ∈ ofSection ↔ field ∉ ofScope
  := by
  cases field <;> decide

/-- The name of that object in the section. -/
def scopeName : String :=
  "analyzer"

/-- The values that a field refuses.  A severity of another kind than a string is left open. -/
def Refuses : Field → Json → Prop
  | enabled, value | respectGitignore, value => ∀ b, value ≠ .bool b
  | severity, value => ∃ text, value = .string text ∧ ∀ level : FailLevel, level.name ≠ text
  | rules, value | exclude, value => ∀ texts : List String, value ≠ .array (texts.map .string)
  | root, value => ∀ text, value ≠ .string text

/-- The value of a field in the section with the given members. -/
def valueIn? (members : List (String × Json)) (field : Field) : Option Json :=
  if field ∈ ofScope then
    (Json.member? scopeName (.object members)).bind (Json.member? field.name)
  else
    Json.member? field.name (.object members)

/-- Whether a field of some settings is what its value says, or the default if there is none. -/
def Reads (s : Settings) (value? : Option Json) : Field → Prop
  | enabled => fieldOr default.enabled Data.bool? (value?.map .ofJson) = some s.enabled
  | severity =>
    fieldOr default.failLevel (fun value => (Format.json.choice? value).bind FailLevel.ofName?)
      (value?.map .ofJson) = some s.failLevel
  | rules => fieldOr default.rules Data.strings? (value?.map .ofJson) = some s.rules
  | root => fieldOr Scope.default.root Data.string? (value?.map .ofJson) = some s.scope.root
  | exclude =>
    fieldOr Scope.default.exclude Data.strings? (value?.map .ofJson) = some s.scope.exclude
  | respectGitignore =>
    fieldOr Scope.default.respectGitignore Data.bool? (value?.map .ofJson)
      = some s.scope.respectGitignore

end Field

/-- The settings that agree with the given ones on some fields and are the default elsewhere. -/
def restrict (s : Settings) (given : Finset Field) : Settings where
  enabled := if .enabled ∈ given then s.enabled else default.enabled
  failLevel := if .severity ∈ given then s.failLevel else default.failLevel
  rules := if .rules ∈ given then s.rules else default.rules
  scope :=
    { root := if .root ∈ given then s.scope.root else Scope.default.root
      exclude := if .exclude ∈ given then s.scope.exclude else Scope.default.exclude
      respectGitignore :=
        if .respectGitignore ∈ given then s.scope.respectGitignore
        else Scope.default.respectGitignore }

/-! ### Sections -/

/-- The members of the given ones among some fields. -/
def entries (s : Settings) (given : Finset Field) (fields : List Field) : List (String × Json) :=
  (fields.filter (· ∈ given)).map fun field => (field.name, field.value s)

/-- The members are the given entries and others with names that are not known, in any order. -/
def Holds (known : List String) (entries members : List (String × Json)) : Prop :=
  ∃ unknown, members.Perm (entries ++ unknown) ∧ ∀ entry ∈ unknown, entry.1 ∉ known

/-- What a section says about the scope if it gives some fields.  It may say nothing if none of
them is one of the scope. -/
inductive WritesScope (s : Settings) (given : Finset Field) : Option Json → Prop
  | missing (h : ∀ field ∈ Field.ofScope, field ∉ given) : WritesScope s given none
  | object {members : List (String × Json)}
      (h : Holds (Field.ofScope.map Field.name) (entries s given Field.ofScope) members) :
      WritesScope s given (some (.object members))

/-- The members of a section that gives some fields of the settings and no others. -/
def WritesFields (s : Settings) (given : Finset Field) (members : List (String × Json)) : Prop :=
  ∃ scope?, WritesScope s given scope?
    ∧ Holds (Field.scopeName :: Field.ofSection.map Field.name)
      (entries s given Field.ofSection ++ scope?.toList.map (Field.scopeName, ·)) members

/-- A known name has the value that the entries give to it. -/
theorem Holds.member?_eq {known : List String} {entries members : List (String × Json)}
    (h : Holds known entries members) {name : String} (hname : name ∈ known) {value? : Option Json}
    (hentries : (entries.filter fun entry => entry.1 == name) = value?.toList.map (name, ·)) :
  Json.member? name (.object members) = value?
  := by
  obtain ⟨unknown, hperm, hunknown⟩ := h
  apply Json.member?_of_perm hperm hentries
  rintro entry hentry rfl
  exact hunknown entry hentry hname

theorem Field.name_injective :
  Function.Injective Field.name
  := by
  intro field other h
  cases field <;> cases other <;> first | rfl | exact absurd h (by decide)

/-- A given field is the one entry of its name. -/
theorem filter_entries (s : Settings) (given : Finset Field) {fields : List Field}
    (hnodup : fields.Nodup) {field : Field} (hfield : field ∈ fields) :
  ((entries s given fields).filter fun entry => entry.1 == field.name)
    = (if field ∈ given then some (field.value s) else none).toList.map (field.name, ·)
  := by
  have hname : (fun other : Field => other.name == field.name) = (· == field) := by
    funext other
    rw [Bool.eq_iff_iff, beq_iff_eq, beq_iff_eq, Field.name_injective.eq_iff]
  have hfilter : fields.filter (· == field) = [field] := by
    rw [List.filter_beq, List.count_eq_one_of_mem hnodup hfield, List.replicate_one]
  rw [entries, List.filter_map, List.filter_filter, Function.comp_def, hname]
  simp_rw [Bool.and_comm _ (decide _)]
  rw [← List.filter_filter, hfilter]
  split <;> simp [*]

/-- A name that no field has is not among the entries. -/
theorem filter_entries_eq_nil (s : Settings) (given : Finset Field) {fields : List Field}
    {name : String} (hname : name ∉ fields.map Field.name) :
  ((entries s given fields).filter fun entry => entry.1 == name) = []
  := by
  rw [List.filter_eq_nil_iff]
  intro entry hentry hentryName
  obtain ⟨field, hfield, rfl⟩ := List.mem_map.mp hentry
  exact hname (List.mem_map.mpr ⟨field, (List.mem_filter.mp hfield).1, beq_iff_eq.mp hentryName⟩)

/-- A written section has what it says about the scope under its name. -/
theorem WritesFields.exists_member?_scopeName {s : Settings} {given : Finset Field}
    {members : List (String × Json)} (h : WritesFields s given members) :
  ∃ scope?, WritesScope s given scope?
    ∧ Json.member? Field.scopeName (.object members) = scope?
  := by
  obtain ⟨scope?, hscope, hmembers⟩ := h
  refine ⟨scope?, hscope, hmembers.member?_eq List.mem_cons_self ?_⟩
  rw [List.filter_append, filter_entries_eq_nil s given (by decide), List.nil_append]
  cases scope? <;> simp

/-- A written section has the value of each given field, and none of another one. -/
theorem WritesFields.valueIn?_eq {s : Settings} {given : Finset Field}
    {members : List (String × Json)} (h : WritesFields s given members) (field : Field) :
  field.valueIn? members = if field ∈ given then some (field.value s) else none
  := by
  by_cases hfield : field ∈ Field.ofScope
  · obtain ⟨scope?, hscope, hmember⟩ := h.exists_member?_scopeName
    rw [Field.valueIn?, if_pos hfield, hmember]
    cases hscope with
    | missing hnone => rw [if_neg (hnone field hfield)]; rfl
    | object hholds =>
      apply hholds.member?_eq (List.mem_map_of_mem hfield)
      apply filter_entries s given (by decide) hfield
  · obtain ⟨scope?, hscope, hholds⟩ := h
    have hsection := Field.mem_ofSection_iff.mpr hfield
    rw [Field.valueIn?, if_neg hfield]
    apply hholds.member?_eq (List.mem_cons_of_mem _ (List.mem_map_of_mem hsection))
    have hname : ¬Field.scopeName = field.name := by
      cases field <;> decide
    rw [List.filter_append, filter_entries s given (by decide) hsection]
    cases scope? <;> simp [hname]

/-! ### Reading -/

theorem scope_ofData?_eq_some_iff {members : List (String × Json)} {s : Settings} :
  Scope.ofData? .json (.ofJson (.object members)) = some s.scope
    ↔ ∀ field ∈ Field.ofScope, field.Reads s (Json.member? field.name (.object members))
  := by
  obtain ⟨enabled, failLevel, rules, root, exclude, respectGitignore⟩ := s
  rw [Scope.ofData?, Data.fields?_ofJson_object]
  simp [-Bool.exists_bool, Option.bind_eq_some_iff, Field.ofScope, Field.Reads, Field.name]

/-- An object is read as settings field by field, and its scope as one of them. -/
theorem ofData?_eq_some_iff {members : List (String × Json)} {s : Settings} :
  ofData? .json (.ofJson (.object members)) = some s
    ↔ (∀ field ∈ Field.ofSection, field.Reads s (Json.member? field.name (.object members)))
      ∧ fieldOr default.scope (Scope.ofData? .json)
        ((Json.member? Field.scopeName (.object members)).map .ofJson) = some s.scope
  := by
  obtain ⟨enabled, failLevel, rules, scope⟩ := s
  rw [ofData?, Data.fields?_ofJson_object]
  simp [-Bool.exists_bool, Option.bind_eq_some_iff, Field.ofSection, Field.Reads, Field.name,
    Field.scopeName, and_assoc]

/-- Each value of a field is read, whatever the other fields are. -/
theorem reads_of_ofData? {members : List (String × Json)} {s : Settings}
    (h : ofData? .json (.ofJson (.object members)) = some s) {field : Field} {value : Json}
    (hvalue : field.valueIn? members = some value) :
  field.Reads s (some value)
  := by
  obtain ⟨hsection, hscope⟩ := ofData?_eq_some_iff.mp h
  rw [Field.valueIn?] at hvalue
  split at hvalue
  case isTrue hfield =>
    obtain ⟨object, hobject, hmember⟩ := Option.bind_eq_some_iff.mp hvalue
    obtain ⟨inner, rfl⟩ := Json.exists_eq_object_of_member? hmember
    rw [hobject] at hscope
    rw [← hmember]
    exact scope_ofData?_eq_some_iff.mp hscope field hfield
  case isFalse hfield =>
    rw [← hvalue]
    exact hsection field (Field.mem_ofSection_iff.mpr hfield)

/-- The fields of a written section are read as the given values and the default ones. -/
theorem Field.reads_restrict (s : Settings) (given : Finset Field) (field : Field) :
  field.Reads (s.restrict given) (if field ∈ given then some (field.value s) else none)
  := by
  cases field with
  | enabled => exact fieldOr_ite (by simp [value]) _
  | severity =>
    apply fieldOr_ite
    exact FailLevel.ofName?_name s.failLevel
  | rules => exact fieldOr_ite (by simp [value]) _
  | root => exact fieldOr_ite (by simp [value]) _
  | exclude => exact fieldOr_ite (by simp [value]) _
  | respectGitignore => exact fieldOr_ite (by simp [value]) _

/-- What a field refuses is not read. -/
theorem Field.Refuses.not_reads {field : Field} {value : Json} (h : field.Refuses value)
    (s : Settings) :
  ¬field.Reads s (some value)
  := by
  intro hreads
  cases field with
  | enabled => exact h _ (Data.bool?_ofJson_eq_some_iff.mp hreads)
  | severity =>
    obtain ⟨text, rfl, htext⟩ := h
    have hnone := (FailLevel.ofName?_eq_none htext).symm.trans hreads
    cases hnone
  | rules => exact h _ (Data.strings?_ofJson_eq_some_iff.mp hreads)
  | root => exact h _ (Data.string?_ofJson_eq_some_iff.mp hreads)
  | exclude => exact h _ (Data.strings?_ofJson_eq_some_iff.mp hreads)
  | respectGitignore => exact h _ (Data.bool?_ofJson_eq_some_iff.mp hreads)

/-- A written section is read as the given fields and the default ones. -/
theorem WritesFields.ofData?_eq {s : Settings} {given : Finset Field}
    {members : List (String × Json)} (h : WritesFields s given members) :
  ofData? .json (.ofJson (.object members)) = some (s.restrict given)
  := by
  have hreads (field : Field) : field.Reads (s.restrict given) (field.valueIn? members) := by
    rw [h.valueIn?_eq]
    exact Field.reads_restrict s given field
  simp only [Field.valueIn?] at hreads
  rw [ofData?_eq_some_iff]
  constructor
  · intro field hfield
    have hread := hreads field
    rwa [if_neg (Field.mem_ofSection_iff.mp hfield)] at hread
  · obtain ⟨scope?, hscope, hmember⟩ := h.exists_member?_scopeName
    rw [hmember]
    cases hscope with
    | missing hnone =>
      have hdefault : (s.restrict given).scope = default.scope := by
        simp only [restrict, if_neg (hnone .root (by decide)), if_neg (hnone .exclude (by decide)),
          if_neg (hnone .respectGitignore (by decide)), default]
      rw [hdefault]
      rfl
    | object hholds =>
      apply scope_ofData?_eq_some_iff.mpr
      intro field hfield
      have hread := hreads field
      rwa [if_pos hfield, hmember] at hread

theorem ofData?_eq_none_of_refuses {members : List (String × Json)} {field : Field} {value : Json}
    (hvalue : field.valueIn? members = some value) (hrefuses : field.Refuses value) :
  ofData? .json (.ofJson (.object members)) = none
  := by
  rw [Option.eq_none_iff_forall_ne_some]
  intro s hs
  exact hrefuses.not_reads s (reads_of_ofData? hs hvalue)

/-! ### Manifests -/

theorem ofManifest?_eq_of_member? {text : String} {manifest value : Json}
    (htext : readManifest? text = some manifest)
    (hmember : manifest.member? sectionName = some value) :
  ofManifest? text = ofData? .json (.ofJson value)
  := by
  simp only [ofManifest?, htext, hmember, Option.bind_eq_bind, Option.bind_some]

/-- The settings of a manifest whose section gives some fields are these fields and the default
ones; without the section they are all the default ones.  No settings are read, and the manifest
is reported, if a field has a value that it refuses. -/
theorem ofManifest?_fields (text : String) :
  (∀ (s : Settings) (given : Finset Field) (manifest : Json) (members : List (String × Json)),
      readManifest? text = some manifest →
      manifest.member? sectionName = some (.object members) →
      WritesFields s given members →
      ofManifest? text = some (s.restrict given))
    ∧ (∀ members : List (String × Json), readManifest? text = some (.object members) →
      (∀ entry ∈ members, entry.1 ≠ sectionName) →
      ofManifest? text = some default)
    ∧ ∀ (field : Field) (value manifest : Json) (members : List (String × Json)),
      readManifest? text = some manifest →
      manifest.member? sectionName = some (.object members) →
      field.valueIn? members = some value → field.Refuses value →
      ofManifest? text = none
        ∧ ∀ path, Path.fileName? path = some manifestName →
          ofText path text = .error .badManifest
  := by
  refine ⟨?written, ?missing, ?refused⟩
  case written =>
    intro s given manifest members htext hmember hwrites
    rw [ofManifest?_eq_of_member? htext hmember, hwrites.ofData?_eq]
  case missing =>
    intro members htext hmissing
    simp only [ofManifest?, htext, Json.member?_eq_none hmissing, Option.bind_eq_bind,
      Option.bind_some]
  case refused =>
    intro field value manifest members htext hmember hvalue hrefuses
    have hnone : ofManifest? text = none := by
      rw [ofManifest?_eq_of_member? htext hmember, ofData?_eq_none_of_refuses hvalue hrefuses]
    refine ⟨hnone, fun path hpath => ?_⟩
    rw [ofText, if_pos hpath, hnone]
    rfl

/-- The members of a section that gives the files to leave out and the severity, and has a member
with an unknown name in the section and one in the scope. -/
def strictSection : List (String × Json) :=
  [("theme", .array []),
    ("analyzer", .object [("exclude", .array [.string "docs"]), ("deep", .bool true)]),
    ("severity", .string "error")]

/-- A manifest with that section. -/
def strictManifest : String :=
  "\x7b\"accessibility\": \x7b\"theme\": [], \"analyzer\": \x7b\"exclude\": [\"docs\"], "
    ++ "\"deep\": true\x7d, \"severity\": \"error\"\x7d, \"name\": \"site\"\x7d"

/-- A manifest with that section has its two fields and four default ones; one without a section
has the default settings; and one whose severity is no level is reported. -/
theorem ofManifest?_fields_strictSection :
  let s : Settings := ⟨false, .error, ["page-title"], ⟨"web", ["docs"], false⟩⟩
  WritesFields s {.severity, .exclude} strictSection
    ∧ ofManifest? strictManifest = some ⟨true, .error, [], ⟨".", ["docs"], true⟩⟩
    ∧ ofManifest? "\x7b\"name\": \"site\"\x7d" = some default
    ∧ ofText "web/package.json" "\x7b\"accessibility\": \x7b\"severity\": \"fatal\"\x7d\x7d"
      = .error .badManifest
  := by
  intro s
  have hwrites : WritesFields s {.severity, .exclude} strictSection := by
    refine ⟨some _, .object ⟨[("deep", .bool true)], .refl _, by decide⟩,
      [("theme", .array [])], (List.reverse_perm strictSection).symm, by decide⟩
  refine ⟨hwrites, ?_, ?_, ?_⟩
  · apply (ofManifest?_fields _).1 s {.severity, .exclude}
      (.object [("accessibility", .object strictSection), ("name", .string "site")]) _ (by cbv) rfl
      hwrites
  · apply (ofManifest?_fields _).2.1 [("name", .string "site")] (by cbv) (by decide)
  · apply ((ofManifest?_fields _).2.2 .severity (.string "fatal")
      (.object [("accessibility", .object [("severity", .string "fatal")])]) _ (by cbv) rfl rfl
      ?_).2
    · decide +kernel
    · exact ⟨"fatal", rfl, by rintro (_ | _) <;> decide⟩

end Settings

end AccessAudit
