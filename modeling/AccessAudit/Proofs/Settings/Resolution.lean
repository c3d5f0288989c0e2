import AccessAudit.Proofs.Path.Components
import AccessAudit.Proofs.Settings.Fields
import AccessAudit.Settings.Lookup
import Mathlib.Data.List.Find

/-!
# Finding and loading settings

The places to look for settings have ranks, and the settings come from the first place that offers
some.  What is found and loaded depends on the files at that place and before it only.  A manifest
is chosen for its section, and loading it reads nothing but the value of the section.
-/

namespace AccessAudit.Settings

/-! ### Manifests -/

/-- The file at a path is a manifest in which the section has a value. -/
def HasSection (fs : FileSystem) (path : String) (value : Json) : Prop :=
  ∃ text manifest, fs.read path = .ok text ∧ readManifest? text = some manifest
    ∧ manifest.member? sectionName = some value

/-- Why there is no section at a path. -/
inductive LacksSection (fs : FileSystem) (path : String) : Prop
  | unreadable (failure : ReadFailure) (h : fs.read path = .error failure)
  | unparsable (text : String) (h : fs.read path = .ok text) (hnone : readManifest? text = none)
  | sectionless (text : String) (manifest : Json) (h : fs.read path = .ok text)
      (hmanifest : readManifest? text = some manifest)
      (hnone : manifest.member? sectionName = none)

variable {fs : FileSystem} {path : String}

/-- A manifest is chosen exactly for the value of its section. -/
theorem isManifest_eq_true_iff :
  isManifest fs path = true ↔ ∃ value, HasSection fs path value
  := by
  unfold isManifest HasSection
  cases fs.read path with
  | error failure => simp
  | ok text =>
    simp only [inManifest, Option.any_eq_true, Option.isSome_iff_exists, Except.ok.injEq,
      exists_and_left, exists_eq_left']
    constructor
    · rintro ⟨manifest, hmanifest, value, hvalue⟩
      exact ⟨value, manifest, hmanifest, hvalue⟩
    · rintro ⟨value, manifest, hmanifest, hvalue⟩
      exact ⟨manifest, hmanifest, value, hvalue⟩

/-- A file without the section is not chosen. -/
theorem LacksSection.isManifest_eq_false (h : LacksSection fs path) :
  isManifest fs path = false
  := by
  cases h with
  | unreadable failure h => simp [isManifest, h]
  | unparsable text h hnone => simp [isManifest, h, inManifest, hnone]
  | sectionless text manifest h hmanifest hnone =>
    simp [isManifest, h, inManifest, hmanifest, hnone]

/-- A value that is neither an object nor an array holds no settings. -/
theorem ofData?_ofJson_eq_none {value : Json} (hobject : ∀ members, value ≠ .object members)
    (harray : ∀ items, value ≠ .array items) :
  ofData? .json (.ofJson value) = none
  := by
  cases value with
  | object members => exact absurd rfl (hobject members)
  | array items => exact absurd rfl (harray items)
  | _ => rfl

theorem HasSection.load_eq {value : Json} (h : HasSection fs path value)
    (hname : Path.fileName? path = some manifestName) :
  load fs.read path = (ofData? .json (.ofJson value)).elim (.error .badManifest) .ok
  := by
  obtain ⟨text, manifest, htext, hmanifest, hvalue⟩ := h
  rw [load, htext]
  simp only [ofText, if_pos hname, ofManifest?_eq_of_member? hmanifest hvalue]

/-! ### Ranks -/

theorem fileName?_join_projectFile (directory : String) {file : String} (h : file ∈ projectFiles) :
  Path.fileName? (Path.join directory file) = some file ∧ file ≠ manifestName
  := by
  simp only [projectFiles, List.mem_cons, List.not_mem_nil, or_false] at h
  obtain rfl | rfl := h
  · exact ⟨Path.fileName?_join directory (by decide) (by decide +kernel), by decide⟩
  · exact ⟨Path.fileName?_join directory (by decide) (by decide +kernel), by decide⟩

theorem fileName?_join_manifestName (directory : String) :
  Path.fileName? (Path.join directory manifestName) = some manifestName
  := by
  exact Path.fileName?_join directory (by decide) (by decide +kernel)

theorem fileName?_join_userFile (directory : String) :
  Path.fileName? (Path.join directory userFile) ≠ some manifestName
  := by
  rw [Path.fileName?_join directory (by decide) (by decide +kernel)]
  decide

/-- The places to look for settings, in the order of their ranks. -/
def ranked (directory : String) (named userDirectory : Option String) : List Source :=
  named.toList.map .named
    ++ (projectFiles ++ [manifestName]).map (fun file => .project (Path.join directory file))
    ++ userDirectory.toList.map (fun d => .user (Path.join d userFile))
    ++ [.builtin]

namespace Source

/-- Whether a place offers settings: a manifest if it has the section, another file that is looked
for if it is there, and the command line and the default settings in any case. -/
def Offers (fs : FileSystem) : Source → Prop
  | .named _ => True
  | .project path =>
    if Path.fileName? path = some manifestName then ∃ value, HasSection fs path value
    else fs.isFile path = true
  | .user path => fs.isFile path = true
  | .builtin => True

/-- Two sets of files have the same entry at a place. -/
def Agrees (fs fs' : FileSystem) (source : Source) : Prop :=
  ∀ path ∈ source.path?, fs'.find path = fs.find path

variable {fs' : FileSystem} {source : Source}

theorem read_eq_of_find_eq (h : fs'.find path = fs.find path) :
  fs'.read path = fs.read path
  := by
  rw [FileSystem.read, h, FileSystem.read]

/-- Whether a place offers settings depends on the entry there. -/
theorem Agrees.offers_iff (h : Agrees fs fs' source) :
  source.Offers fs' ↔ source.Offers fs
  := by
  cases source with
  | named path => exact Iff.rfl
  | builtin => exact Iff.rfl
  | project path =>
    have hfind := h path rfl
    simp only [Offers, HasSection, read_eq_of_find_eq hfind, FileSystem.isFile, hfind]
  | user path => simp only [Offers, FileSystem.isFile, h path rfl]

/-- The settings at a place depend on the entry there. -/
theorem Agrees.load_eq (h : Agrees fs fs' source) :
  source.load fs' = source.load fs
  := by
  unfold load
  cases hpath : source.path? with
  | none => rfl
  | some path =>
    simp only [Settings.load, read_eq_of_find_eq (h path hpath)]

end Source

instance (fs : FileSystem) : (source : Source) → Decidable (source.Offers fs)
  | .named _ => isTrue trivial
  | .project path =>
    if hname : Path.fileName? path = some manifestName then
      decidable_of_iff (isManifest fs path = true)
        (by rw [Source.Offers, if_pos hname, isManifest_eq_true_iff])
    else decidable_of_iff (fs.isFile path = true) (by rw [Source.Offers, if_neg hname])
  | .user path => inferInstanceAs (Decidable (fs.isFile path = true))
  | .builtin => isTrue trivial

/-! ### The first place -/

/-- The file of a project that is found is the first one that offers settings. -/
theorem find?_projectFiles (fs : FileSystem) (directory : String) :
  ((projectFiles ++ [manifestName]).map fun file => Source.project (Path.join directory file)).find?
      (fun source => decide (source.Offers fs))
    = (projectFile? fs directory).map .project
  := by
  have hfile (file : String) (hmem : file ∈ projectFiles) :
      decide ((Source.project (Path.join directory file)).Offers fs)
        = fs.isFile (Path.join directory file) := by
    obtain ⟨hname, hne⟩ := fileName?_join_projectFile directory hmem
    rw [Bool.eq_iff_iff, decide_eq_true_iff, Source.Offers, hname, if_neg (by simpa using hne)]
  have hmanifest : decide ((Source.project (Path.join directory manifestName)).Offers fs)
      = isManifest fs (Path.join directory manifestName) := by
    rw [Bool.eq_iff_iff, decide_eq_true_iff, Source.Offers,
      if_pos (fileName?_join_manifestName directory), isManifest_eq_true_iff]
  have hfiles : projectFiles.find?
        (fun file => decide ((Source.project (Path.join directory file)).Offers fs))
      = projectFiles.find? fun file => fs.isFile (Path.join directory file) :=
    List.find?_congr hfile
  have hlast : [manifestName].find?
        (fun file => decide ((Source.project (Path.join directory file)).Offers fs))
      = [manifestName].find? fun file => isManifest fs (Path.join directory file) := by
    simp only [List.find?_cons, hmanifest, List.find?_nil]
  have hlast' : [Path.join directory manifestName].find? (isManifest fs)
      = ([manifestName].find? fun file => isManifest fs (Path.join directory file)).map
        (Path.join directory) := by
    simp only [List.find?_cons, List.find?_nil]
    cases isManifest fs (Path.join directory manifestName) <;> rfl
  rw [projectFile?, hlast', List.find?_map, List.find?_map, List.find?_append, Option.map_or,
    Option.map_or, Option.map_map, Option.map_map]
  simp only [Function.comp_def, hfiles, hlast]

/-- The place that is found is the first one that offers settings. -/
theorem find?_ranked (fs : FileSystem) (directory : String) (named userDirectory : Option String) :
  (ranked directory named userDirectory).find? (fun source => decide (source.Offers fs))
    = some (lookup fs directory named userDirectory)
  := by
  cases named with
  | some path => rfl
  | none =>
    have huser : (userDirectory.toList.map fun d => Source.user (Path.join d userFile)).find?
          (fun source => decide (source.Offers fs))
        = (userFile? fs userDirectory).map .user := by
      cases userDirectory with
      | none => rfl
      | some d =>
        have hoffers : decide ((Source.user (Path.join d userFile)).Offers fs)
            = fs.isFile (Path.join d userFile) := by
          rw [Bool.eq_iff_iff, decide_eq_true_iff, Source.Offers]
        simp only [Option.toList_some, List.map_cons, List.map_nil, List.find?_cons, hoffers,
          List.find?_nil, userFile?, Option.map_some, Option.filter_some]
        cases fs.isFile (Path.join d userFile) <;> rfl
    rw [ranked, List.find?_append, List.find?_append, List.find?_append, find?_projectFiles, huser,
      lookup]
    cases projectFile? fs directory with
    | some path => rfl
    | none =>
      cases userFile? fs userDirectory with
      | some path => rfl
      | none => rfl

/-- A place offers settings, and those in front of it do not. -/
structure IsFirst (fs : FileSystem) (before : List Source) (source : Source) : Prop where
  offers : source.Offers fs
  not_offers : ∀ other ∈ before, ¬other.Offers fs

/-- A place is found exactly if it is the first one that offers settings. -/
theorem lookup_eq_iff_isFirst {directory : String} {named userDirectory : Option String}
    {source : Source} :
  lookup fs directory named userDirectory = source
    ↔ ∃ before after, ranked directory named userDirectory = before ++ source :: after
      ∧ IsFirst fs before source
  := by
  have hfind := find?_ranked fs directory named userDirectory
  have hfound : lookup fs directory named userDirectory = source
      ↔ (ranked directory named userDirectory).find? (fun source => decide (source.Offers fs))
        = some source := by
    rw [hfind, Option.some.injEq]
  rw [hfound, List.find?_eq_some_iff_append]
  simp only [decide_eq_true_eq, Bool.not_eq_true', decide_eq_false_iff_not]
  constructor
  · rintro ⟨hoffers, before, after, heq, hbefore⟩
    exact ⟨before, after, heq, hoffers, hbefore⟩
  · rintro ⟨before, after, heq, hfirst⟩
    exact ⟨hfirst.offers, before, after, heq, hfirst.not_offers⟩

/-- The first place remains the first one while the entries at it and in front of it remain. -/
theorem IsFirst.of_agrees {fs' : FileSystem} {before : List Source} {source : Source}
    (h : IsFirst fs before source)
    (hagrees : ∀ other ∈ before ++ [source], other.Agrees fs fs') :
  IsFirst fs' before source
  := by
  constructor
  · exact (hagrees source (by simp)).offers_iff.mpr h.offers
  · intro other hother hoffers
    apply h.not_offers other hother
    exact (hagrees other (List.mem_append_left _ hother)).offers_iff.mp hoffers

/-- The file of the user is found if the project has no file with settings and its manifest no
section. -/
theorem lookup_eq_user {fs : FileSystem} {directory user : String}
    (hfiles : ∀ file ∈ projectFiles, fs.isFile (Path.join directory file) = false)
    (hlacks : LacksSection fs (Path.join directory manifestName))
    (huser : fs.isFile (Path.join user userFile) = true) :
  lookup fs directory none (some user) = .user (Path.join user userFile)
  := by
  have hnone : isManifest fs (Path.join directory manifestName) = false :=
    hlacks.isManifest_eq_false
  have hall : (projectFiles.map (Path.join directory)).find? fs.isFile = none := by
    rw [List.find?_eq_none]
    intro path hpath
    obtain ⟨file, hfile, rfl⟩ := List.mem_map.mp hpath
    rw [hfiles file hfile]
    decide
  have hproject : projectFile? fs directory = none := by
    rw [projectFile?, hall, Option.none_or, List.find?_cons, hnone, List.find?_nil]
  simp only [lookup, hproject, userFile?, Option.map_some, Option.filter_some, huser, if_true,
    Option.elim_some]

/-- A file named on the command line is found, whether it exists or not; without one, the settings
come from the first file that offers some, or else they are the default ones.  The place and the
settings depend on the entries at that place and in front of it only.  A manifest that is found has
the section, and its settings are what the value of the section is read as, or an error.  A manifest
without the section, readable or not, does not keep the file of the user from being loaded. -/
theorem lookup_and_load (fs : FileSystem) (directory : String)
    (named userDirectory : Option String) :
  let source := lookup fs directory named userDirectory
  let manifest := Path.join directory manifestName
  (∀ path ∈ named, source = .named path)
    ∧ (∃ before after, ranked directory named userDirectory = before ++ source :: after
      ∧ IsFirst fs before source
      ∧ ∀ fs', (∀ other ∈ before ++ [source], other.Agrees fs fs') →
        lookup fs' directory named userDirectory = source ∧ source.load fs' = source.load fs)
    ∧ (source = .project manifest → ∃ value, HasSection fs manifest value
      ∧ source.load fs = (ofData? .json (.ofJson value)).elim (.error .badManifest) .ok
      ∧ ((∀ members, value ≠ .object members) → (∀ items, value ≠ .array items) →
        source.load fs = .error .badManifest))
    ∧ ∀ user ∈ userDirectory, named = none →
      (∀ file ∈ projectFiles, fs.isFile (Path.join directory file) = false) →
      LacksSection fs manifest → fs.isFile (Path.join user userFile) = true →
      source = .user (Path.join user userFile)
        ∧ ∀ text, fs.read (Path.join user userFile) = .ok text →
          source.load fs = (ofToml? text).elim (.error .badToml) .ok
  := by
  intro source manifest
  refine ⟨?named, ?first, ?chosen, ?user⟩
  case named =>
    rintro path ⟨⟩
    rfl
  case first =>
    obtain ⟨before, after, heq, hfirst⟩ := lookup_eq_iff_isFirst.mp (Eq.refl source)
    refine ⟨before, after, heq, hfirst, fun fs' hagrees => ⟨?_, ?_⟩⟩
    · exact lookup_eq_iff_isFirst.mpr ⟨before, after, heq, hfirst.of_agrees hagrees⟩
    · exact (hagrees source (by simp)).load_eq
  -- A manifest is chosen because it offers settings, and it does so by its section only.
  case chosen =>
    intro hsource
    obtain ⟨before, after, -, hfirst⟩ := lookup_eq_iff_isFirst.mp (Eq.refl source)
    have hname := fileName?_join_manifestName directory
    have hoffers := hfirst.offers
    rw [hsource, Source.Offers, if_pos hname] at hoffers
    obtain ⟨value, hvalue⟩ := hoffers
    have hload : source.load fs
        = (ofData? .json (.ofJson value)).elim (.error .badManifest) .ok := by
      rw [hsource]
      exact hvalue.load_eq hname
    refine ⟨value, hvalue, hload, fun hobject harray => ?_⟩
    rw [hload, ofData?_ofJson_eq_none hobject harray]
    rfl
  case user =>
    rintro user ⟨⟩ rfl hfiles hlacks huser
    have hsource := lookup_eq_user hfiles hlacks huser
    refine ⟨hsource, fun text htext => ?_⟩
    have hload : source.load fs = (Source.user (Path.join user userFile)).load fs :=
      congrArg _ hsource
    rw [hload]
    simp only [Source.load, Source.path?, load, htext, ofText,
      if_neg (fileName?_join_userFile user)]

/-- A project with a manifest of some text, and a file of the user. -/
def siteFiles (manifest : String) : FileSystem where
  top := .directory
    [("site", .directory [("package.json", .file (some manifest))]),
      ("home", .directory [("config.toml", .file (some "enabled = false"))])]
  working := []

/-- The text of a manifest whose section has no settings. -/
def emptyManifest : String :=
  "\x7b\"accessibility\": null\x7d"

/-- A section without settings is chosen and is an error; a manifest that is none leaves the
settings to the file of the user; and a missing file that is named is chosen before both. -/
theorem lookup_and_load_site :
  (lookup (siteFiles emptyManifest) "site" none (some "home") = .project "site/package.json"
      ∧ (lookup (siteFiles emptyManifest) "site" none (some "home")).load (siteFiles emptyManifest)
        = .error .badManifest)
    ∧ (lookup (siteFiles "\x7b") "site" none (some "home") = .user "home/config.toml"
      ∧ (lookup (siteFiles "\x7b") "site" none (some "home")).load (siteFiles "\x7b")
        = .ok ⟨false, .warning, [], .default⟩)
    ∧ lookup (siteFiles "\x7b") "site" (some "lost.toml") (some "home") = .named "lost.toml"
  := by
  refine ⟨⟨by decide +kernel, ?_⟩, ?_, ?_⟩
  · obtain ⟨-, -, hchosen, -⟩ := lookup_and_load (siteFiles emptyManifest) "site" none (some "home")
    obtain ⟨value, ⟨text, manifest, htext, hmanifest, hvalue⟩, hload, herror⟩ :=
      hchosen (by decide +kernel)
    have hread : (siteFiles emptyManifest).read (Path.join "site" manifestName)
        = .ok emptyManifest := by decide +kernel
    obtain rfl : emptyManifest = text := Except.ok.inj (hread.symm.trans htext)
    have hjson : readManifest? emptyManifest = some (.object [("accessibility", .null)]) := by cbv
    obtain rfl := Option.some.inj (hjson.symm.trans hmanifest)
    obtain rfl : Json.null = value := Option.some.inj hvalue
    exact herror (by simp) (by simp)
  · obtain ⟨-, -, -, huser⟩ := lookup_and_load (siteFiles "\x7b") "site" none (some "home")
    have hnone : readManifest? "\x7b" = none := by cbv
    have hlacks : LacksSection (siteFiles "\x7b") (Path.join "site" manifestName) :=
      .unparsable "\x7b" (by decide +kernel) hnone
    obtain ⟨hsource, hload⟩ := huser "home" rfl rfl (by decide +kernel) hlacks (by decide +kernel)
    have hpath : Path.join "home" userFile = "home/config.toml" := by decide +kernel
    rw [hpath] at hsource hload
    refine ⟨hsource, (hload "enabled = false" (by decide +kernel)).trans ?_⟩
    decide +kernel
  · apply (lookup_and_load (siteFiles "\x7b") "site" (some "lost.toml") (some "home")).1
    rfl

end AccessAudit.Settings
