import AccessAudit.Discovery.Walk
import AccessAudit.Proofs.Path.Components
import AccessAudit.Proofs.Text.Occurrence

/-!
# Excluded paths

A path is excluded by a pattern that describes it, and by one that leaves the name of one of its
components when the parts for any directories are taken out.  A pattern without brackets leaves a
name exactly if it is the name with any number of these parts before and after it, so a name alone,
or one at the root of the project, excludes files in every directory of that name.
-/

namespace AccessAudit.Discovery

/-! ### Texts without a part -/

/-- One text is another one without a part, taken out from left to right wherever it stands. -/
inductive Removes (part : List Char) : List Char → List Char → Prop
  | nil : Removes part [] []
  | keep {c : Char} {s t : List Char} (h : ¬part <+: c :: s) (hrest : Removes part s t) :
    Removes part (c :: s) (c :: t)
  | cut {s t : List Char} (hrest : Removes part s t) : Removes part (part ++ s) t

namespace Exclusion

variable {part : List Char}

theorem erase_length_append (u s : List Char) :
  erase part u.length (u ++ s) = erase part 0 s
  := by
  induction u with
  | nil => rfl
  | cons c u ih => rw [List.length_cons, List.cons_append, erase, ih]

/-- A part at the beginning is erased. -/
theorem erase_append (hpart : part ≠ []) (s : List Char) :
  erase part 0 (part ++ s) = erase part 0 s
  := by
  obtain ⟨c, u, rfl⟩ := List.exists_cons_of_ne_nil hpart
  have hrest : (Text.rest? (c :: u) (c :: (u ++ s))).isSome = true := by
    rw [Text.isSome_rest?_iff, ← List.cons_append]
    exact List.prefix_append _ _
  rw [List.cons_append, erase, if_pos hrest, List.length_cons, Nat.add_sub_cancel,
    erase_length_append]

theorem erase_cons {c : Char} {s : List Char} (h : ¬part <+: c :: s) :
  erase part 0 (c :: s) = c :: erase part 0 s
  := by
  rw [erase, if_neg fun hrest => h (Text.isSome_rest?_iff.mp hrest)]

/-- Erasing a part takes it out wherever it stands. -/
theorem erase_eq_iff_removes (hpart : part ≠ []) {s t : List Char} :
  erase part 0 s = t ↔ Removes part s t
  := by
  constructor
  · rintro rfl
    induction hlength : s.length using Nat.strong_induction_on generalizing s with
    | _ n ih =>
      by_cases hbegins : part <+: s
      · obtain ⟨r, rfl⟩ := hbegins
        rw [erase_append hpart]
        apply Removes.cut
        apply ih r.length _ rfl
        have := List.length_pos_iff.mpr hpart
        rw [List.length_append] at hlength
        omega
      · cases s with
        | nil => exact .nil
        | cons c s =>
          rw [erase_cons hbegins]
          apply Removes.keep hbegins
          apply ih s.length _ rfl
          rw [List.length_cons] at hlength
          omega
  · intro h
    induction h with
    | nil => rfl
    | keep h _ ih => rw [erase_cons h, ih]
    | cut _ ih => rw [erase_append hpart, ih]

end Exclusion

/-- Characters before which the part cannot begin stay. -/
theorem Removes.append_of_not_mem {d : Char} {part s t u : List Char} (hu : d ∉ u)
    (h : Removes (d :: part) s t) :
  Removes (d :: part) (u ++ s) (u ++ t)
  := by
  induction u with
  | nil => exact h
  | cons c u ih =>
    rw [List.mem_cons, not_or] at hu
    rw [List.cons_append, List.cons_append]
    apply Removes.keep
    · rw [List.cons_prefix_cons]
      rintro ⟨heq, -⟩
      exact hu.1 heq
    · exact ih hu.2

/-- A part that stands several times at the beginning is taken out. -/
theorem Removes.replicate_append {part s t : List Char} (n : Nat) (h : Removes part s t) :
  Removes part ((List.replicate n part).flatten ++ s) t
  := by
  induction n with
  | zero => exact h
  | succ n ih =>
    rw [List.replicate_succ, List.flatten_cons, List.append_assoc]
    exact .cut ih

/-! ### Names between directories -/

/-- A text that can be the name of a component, without asterisks. -/
structure IsName (s : List Char) : Prop where
  ne_nil : s ≠ []
  asterisk : '*' ∉ s
  slash : '/' ∉ s

/-- Any directories before something. -/
def above : List Char :=
  ['*', '*', '/']

/-- Any directories and files below something. -/
def below : List Char :=
  ['/', '*', '*']

theorem above_ne_nil :
  above ≠ []
  := List.cons_ne_nil _ _

theorem below_ne_nil :
  below ≠ []
  := List.cons_ne_nil _ _

/-- A name with any directories before and after it, each some number of times. -/
def around (m n : Nat) (name : List Char) : List Char :=
  (List.replicate m above).flatten ++ (name ++ (List.replicate n below).flatten)

/-- What is left of a pattern without the parts for any directories. -/
def Leaves (text name : List Char) : Prop :=
  ∃ middle, Removes above text middle ∧ Removes below middle name

/-- Directories below something are directories above others, between a slash and asterisks. -/
theorem flatten_replicate_below (n : Nat) :
  (List.replicate (n + 1) below).flatten
    = '/' :: ((List.replicate n above).flatten ++ ['*', '*'])
  := by
  induction n with
  | zero => rfl
  | succ n ih =>
    rw [List.replicate_succ, List.flatten_cons, ih, List.replicate_succ, List.flatten_cons]
    simp [above, below]

/-- Of a name with any directories before and after it, the name is left. -/
theorem leaves_around (m n : Nat) {name : List Char} (hname : IsName name) :
  Leaves (around m n name) name
  := by
  have hnil : Removes below (name ++ []) (name ++ []) := .append_of_not_mem hname.slash .nil
  cases n with
  | zero =>
    refine ⟨name ++ [], .replicate_append m ?_, by simpa using hnil⟩
    exact .append_of_not_mem hname.asterisk .nil
  | succ n =>
    -- All but the last of the parts after the name are taken out as parts before something.
    have hlast : Removes above ['*', '*'] ['*', '*'] :=
      .keep (by decide) (.keep (by decide) .nil)
    refine ⟨name ++ below, .replicate_append m ?_, ?_⟩
    · apply Removes.append_of_not_mem hname.asterisk
      rw [flatten_replicate_below]
      exact .keep (by simp [above]) (.replicate_append n hlast)
    · have hcut : Removes below (below ++ []) [] := .cut .nil
      have h : Removes below (name ++ (below ++ [])) (name ++ []) :=
        .append_of_not_mem hname.slash hcut
      rwa [List.append_nil, List.append_nil] at h

/-- What is left of a pattern is found by erasing the parts for any directories. -/
theorem leaves_iff_erase {text name : List Char} :
  Leaves text name ↔ Exclusion.erase below 0 (Exclusion.erase above 0 text) = name
  := by
  rw [Exclusion.erase_eq_iff_removes below_ne_nil]
  constructor
  · rintro ⟨middle, hmiddle, hname⟩
    rw [← Exclusion.erase_eq_iff_removes above_ne_nil] at hmiddle
    rwa [hmiddle]
  · intro hname
    refine ⟨_, ?_, hname⟩
    rw [← Exclusion.erase_eq_iff_removes above_ne_nil]

theorem Leaves.unique {text name name' : List Char} (h : Leaves text name)
    (h' : Leaves text name') :
  name = name'
  := by
  rw [leaves_iff_erase] at h h'
  rw [← h, ← h']

/-- Names with any directories before and after them are the same text only if all their parts are
the same. -/
theorem around_inj {m n m' n' : Nat} {name name' : List Char} (hname : IsName name)
    (hname' : IsName name') (h : around m n name = around m' n' name') :
  m = m' ∧ n = n' ∧ name = name'
  := by
  obtain rfl : name = name' := by
    have hleaves := leaves_around m n hname
    rw [h] at hleaves
    exact hleaves.unique (leaves_around m' n' hname')
  -- How many directories stand before the name shows by its first character, which is no asterisk.
  have hm : m = m' := by
    obtain ⟨c, s, rfl⟩ := List.exists_cons_of_ne_nil hname.ne_nil
    have hc : c ≠ '*' := by
      rintro rfl
      exact hname.asterisk List.mem_cons_self
    induction m generalizing m' with
    | zero =>
      cases m' with
      | zero => rfl
      | succ m' => simp [around, above, List.replicate_succ, hc] at h
    | succ m ih =>
      cases m' with
      | zero => simp [around, above, List.replicate_succ, Ne.symm hc] at h
      | succ m' =>
        simp only [around, List.replicate_succ, List.flatten_cons, List.append_assoc,
          List.append_cancel_left_eq] at h
        rw [ih h]
  obtain rfl := hm
  -- What comes after the name is then counted by the length of the whole.
  have hlength := congrArg List.length h
  simp only [around, below, List.length_append, List.length_flatten, List.map_replicate,
    List.length_cons, List.length_nil, List.sum_replicate_nat] at hlength
  exact ⟨rfl, by omega, rfl⟩

/-! ### Asterisks of their own -/

/-- Whether two asterisks stand only as a component of their own; the flag says whether a component
begins where the text does. -/
def Isolated (edge : Bool) (s : List Char) : Prop :=
  ∀ before after, s = before ++ '*' :: '*' :: after →
    (before = [] ∧ edge = true ∨ before.getLast? = some '/')
      ∧ (after = [] ∨ after.head? = some '/')

/-- Two asterisks are a component of their own in a text if they are at its beginning and in what
follows the first character. -/
theorem isolated_cons_iff {edge : Bool} {c : Char} {s : List Char} :
  Isolated edge (c :: s)
    ↔ (∀ after, c :: s = '*' :: '*' :: after → edge = true ∧ (after = [] ∨ after.head? = some '/'))
      ∧ Isolated (c == '/') s
  := by
  constructor
  · intro h
    constructor
    · intro after hafter
      simpa using h [] after hafter
    · rintro before after rfl
      have h := h (c :: before) after rfl
      cases before with
      | nil => simpa using h
      | cons d before => simpa [List.getLast?_cons] using h
  · rintro ⟨hfirst, hrest⟩ before after h
    cases before with
    | nil => simpa using hfirst after h
    | cons d before =>
      obtain ⟨rfl, rfl⟩ := List.cons.inj h
      have hrest := hrest before after rfl
      cases before with
      | nil => simpa using hrest
      | cons d before => simpa [List.getLast?_cons] using hrest

theorem Isolated.of_asterisks {edge : Bool} {c : Char} {s : List Char}
    (h : Isolated edge ('*' :: '*' :: c :: s)) :
  edge = true ∧ c = '/'
  := by
  simpa using (isolated_cons_iff.mp h).1 (c :: s) rfl

theorem Isolated.of_above {edge : Bool} {s : List Char} (h : Isolated edge (above ++ s)) :
  Isolated true s
  := by
  have h := isolated_cons_iff.mp (isolated_cons_iff.mp h).2
  apply (isolated_cons_iff.mp h.2).2

theorem Removes.eq_nil {part t : List Char} (hpart : part ≠ []) (h : Removes part [] t) :
  t = []
  := by
  have hnil : Removes part [] [] := .nil
  rw [← Exclusion.erase_eq_iff_removes hpart] at h hnil
  rw [← h, hnil]

/-- Two asterisks are left at a place where a component begins only if the pattern ends there, after
any directories. -/
theorem Removes.asterisks {s t : List Char} (hisolated : Isolated true s)
    (h : Removes above s ('*' :: '*' :: t)) :
  t = [] ∧ ∃ n, s = (List.replicate n above).flatten ++ ['*', '*']
  := by
  generalize hleft : '*' :: '*' :: t = left at h
  induction h with
  | nil => cases hleft
  | keep hfirst hrest =>
    obtain ⟨rfl, rfl⟩ := List.cons.inj hleft
    cases hrest with
    | @keep _ s _ _ hrest =>
      cases s with
      | nil => exact ⟨hrest.eq_nil above_ne_nil, 0, rfl⟩
      | cons c s =>
        obtain ⟨-, rfl⟩ := hisolated.of_asterisks
        exact absurd (by simp [above]) hfirst
    | cut _ => exact absurd hisolated.of_asterisks.2 (by decide)
  | cut _ ih =>
    obtain ⟨ht, n, rfl⟩ := ih hisolated.of_above hleft
    refine ⟨ht, n + 1, ?_⟩
    rw [List.replicate_succ, List.flatten_cons, List.append_assoc]

/-- A pattern that does not begin with any directories leaves a name only if it is the name and any
directories below it. -/
theorem eq_name_append_of_removes {edge : Bool} {s middle name : List Char}
    (hisolated : Isolated edge s) (hfirst : edge = true → ¬above <+: s) (hasterisk : '*' ∉ name)
    (hslash : '/' ∉ name) (habove : Removes above s middle) (hbelow : Removes below middle name) :
  ∃ n, s = name ++ (List.replicate n below).flatten
  := by
  induction s generalizing edge middle name with
  | nil =>
    obtain rfl := habove.eq_nil above_ne_nil
    obtain rfl := hbelow.eq_nil below_ne_nil
    exact ⟨0, rfl⟩
  | cons c s ih =>
    generalize htext : c :: s = text at habove
    cases habove with
    | nil => cases htext
    | keep _ hrest =>
      obtain ⟨rfl, rfl⟩ := List.cons.inj htext
      generalize hmiddle : c :: _ = middle at hbelow
      cases hbelow with
      | nil => cases hmiddle
      | keep _ hname =>
        obtain ⟨rfl, rfl⟩ := List.cons.inj hmiddle
        rw [List.mem_cons, not_or] at hasterisk hslash
        have hisolated := (isolated_cons_iff.mp hisolated).2
        rw [beq_false_of_ne (Ne.symm hslash.1)] at hisolated
        obtain ⟨n, rfl⟩ := ih hisolated (by simp) hasterisk.2 hslash.2 hrest hname
        exact ⟨n, rfl⟩
      | cut hname =>
        -- What is taken out begins with a slash, and two asterisks after it end the pattern.
        obtain ⟨rfl, rfl⟩ := List.cons.inj hmiddle
        obtain ⟨rfl, n, rfl⟩ := hrest.asterisks (isolated_cons_iff.mp hisolated).2
        obtain rfl := hname.eq_nil below_ne_nil
        exact ⟨n + 1, (flatten_replicate_below n).symm⟩
    | cut _ =>
      rw [htext] at hisolated hfirst
      exact absurd (List.prefix_append _ _) (hfirst hisolated.of_asterisks.1)

/-- A pattern without brackets leaves a name exactly if it is the name with any directories before
and after it. -/
theorem leaves_iff_around {text name : List Char} (hisolated : Isolated true text)
    (hname : IsName name) :
  Leaves text name ↔ ∃ m n, text = around m n name
  := by
  constructor
  · rintro ⟨middle, habove, hbelow⟩
    -- Either the text begins with any directories, or it is the name and what is below.
    induction hlength : text.length using Nat.strong_induction_on generalizing text with
    | _ length ih =>
      by_cases hfirst : above <+: text
      · obtain ⟨s, rfl⟩ := hfirst
        have hrest : Removes above s middle := by
          rw [← Exclusion.erase_eq_iff_removes above_ne_nil] at habove ⊢
          rwa [Exclusion.erase_append above_ne_nil] at habove
        have hlt : s.length < length := by
          rw [← hlength, List.length_append]
          simp [above]
        obtain ⟨m, n, rfl⟩ := ih _ hlt hisolated.of_above hrest rfl
        refine ⟨m + 1, n, ?_⟩
        rw [around, around, List.replicate_succ, List.flatten_cons, List.append_assoc]
      · obtain ⟨n, rfl⟩ := eq_name_append_of_removes hisolated (fun _ => hfirst)
          hname.asterisk hname.slash habove hbelow
        exact ⟨0, n, rfl⟩
  · rintro ⟨m, n, rfl⟩
    apply leaves_around m n hname

/-- Outside of brackets what follows a character is read on its own. -/
theorem isSome_readFrom_tail {edge : Bool} {c : Char} {s : List Char} (hbracket : c ≠ '[')
    (h : (Glob.readFrom (.outside edge) (c :: s)).isSome = true) :
  (Glob.readFrom (.outside (c == '/')) s).isSome = true
  := by
  -- The second of two asterisks can be read alone, and a component begins after the slash.
  have hlast : (Glob.readFrom (.outside false) ['*']).isSome = true := rfl
  have hslash {r : List Char} (h : (Glob.readFrom (.outside true) r).isSome = true) :
      (Glob.readFrom (.outside false) ('*' :: '/' :: r)).isSome = true := by
    simpa [Glob.readFrom] using h
  unfold Glob.readFrom at h
  split at h <;> simp_all

/-- In a pattern without brackets two asterisks are read only as a component of their own. -/
theorem isolated_of_isSome_readFrom {edge : Bool} {s : List Char} (hbracket : '[' ∉ s)
    (h : (Glob.readFrom (.outside edge) s).isSome = true) :
  Isolated edge s
  := by
  induction s generalizing edge with
  | nil =>
    intro before after h
    simp at h
  | cons c s ih =>
    rw [List.mem_cons, not_or, eq_comm] at hbracket
    rw [isolated_cons_iff]
    constructor
    · intro after hafter
      rw [hafter] at h
      unfold Glob.readFrom at h
      split at h <;> grind
    · apply ih hbracket.2
      apply isSome_readFrom_tail hbracket.1 h

/-! ### Excluded paths -/

/-- The spellings of the components of a path. -/
def names (path : String) : List (List Char) :=
  (Path.components path).map Exclusion.componentText

/-- A path without a dot and a slash in front of it. -/
def shown (path : String) : List Char :=
  if ['.', '/'] <+: path.toList then path.toList.drop 2 else path.toList

/-- Whether a pattern describes a path. -/
def Describes (text path : String) : Prop :=
  ∃ glob, Glob.read? text = some glob ∧ glob.covers (shown path) = true

/-- Components of a relative path are spelled without slashes, and are not empty. -/
theorem ne_nil_and_not_mem_of_mem_names {path : String} {name : List Char}
    (hrelative : path.toList.head? ≠ some '/') (h : name ∈ names path) :
  name ≠ [] ∧ '/' ∉ name
  := by
  rw [names, Path.components_eq, List.mem_map] at h
  obtain ⟨c, hc, rfl⟩ := h
  rcases List.mem_append.mp hc with hc | hc
  · rw [Path.leading, if_neg hrelative] at hc
    split at hc
    · obtain rfl := List.mem_singleton.mp hc
      decide
    · cases hc
  · obtain ⟨piece, hpiece, hc⟩ := List.mem_filterMap.mp hc
    have hslash := Path.not_mem_of_mem_splitOn hpiece
    rw [Path.ofPiece?] at hc
    split at hc
    · cases hc
    · rename_i hidle
      split at hc <;> obtain rfl := Option.some.inj hc
      · decide
      · rw [Exclusion.componentText, String.toList_ofList]
        refine ⟨?_, hslash⟩
        rintro rfl
        exact hidle rfl

namespace Exclusion

/-- A pattern names a component of a relative path exactly if it leaves its name. -/
theorem namesSegment_iff {e : Exclusion} {path : String}
    (hrelative : path.toList.head? ≠ some '/') :
  e.namesSegment path = true
    ↔ ∃ name ∈ names path, IsName name ∧ Leaves e.text.toList name
  := by
  have hnames : e.namesSegment path = true
      ↔ (e.segment ≠ [] ∧ '*' ∉ e.segment) ∧ e.segment ∈ names path := by
    simp [namesSegment, names]
  have hleaves (name : List Char) : Leaves e.text.toList name ↔ e.segment = name :=
    leaves_iff_erase
  simp only [hnames, hleaves]
  constructor
  · rintro ⟨⟨hne, hasterisk⟩, hmem⟩
    have hslash := (ne_nil_and_not_mem_of_mem_names hrelative hmem).2
    exact ⟨e.segment, hmem, ⟨hne, hasterisk, hslash⟩, rfl⟩
  · rintro ⟨name, hmem, hname, rfl⟩
    exact ⟨⟨hname.ne_nil, hname.asterisk⟩, hmem⟩

/-- Paths are described without a dot and a slash in front of them. -/
theorem describes_eq (e : Exclusion) (path : String) :
  e.describes path = e.glob.covers (shown path)
  := by
  rw [describes, shown]
  split
  · rename_i h
    obtain ⟨rest, hrest⟩ := h
    rw [← hrest, Text.rest?_append]
    rfl
  · rename_i h
    rw [← Text.isSome_rest?_iff, Bool.not_eq_true, Option.isSome_eq_false_iff,
      Option.isNone_iff_eq_none] at h
    rw [h, Option.getD_none]

end Exclusion

/-- The patterns that are read are written as the given texts. -/
theorem eq_map_of_readPatterns {texts : List String} {patterns : List Exclusion}
    (hread : readPatterns texts = .ok patterns) :
  texts = patterns.map Exclusion.text ∧ ∀ e ∈ patterns, Glob.read? e.text = some e.glob
  := by
  induction texts generalizing patterns with
  | nil =>
    obtain rfl := Except.ok.inj hread
    simp
  | cons text texts ih =>
    rw [readPatterns] at hread
    split at hread
    · cases hread
    · rename_i e he
      obtain ⟨glob, hglob, rfl⟩ := Option.map_eq_some_iff.mp he
      cases hrest : readPatterns texts with
      | error failure =>
        rw [hrest] at hread
        cases hread
      | ok rest =>
        rw [hrest] at hread
        obtain rfl := Except.ok.inj hread
        obtain ⟨htexts, hglobs⟩ := ih hrest
        rw [List.map_cons, ← htexts]
        refine ⟨rfl, List.forall_mem_cons.mpr ⟨hglob, hglobs⟩⟩

/-- Given patterns exclude a relative path exactly if one of them describes it or leaves the name of
one of its components. -/
theorem isExcluded_iff_leaves {texts : List String} {patterns : List Exclusion}
    (hread : readPatterns texts = .ok patterns) {path : String}
    (hrelative : path.toList.head? ≠ some '/') :
  isExcluded patterns path = true
    ↔ (∃ text ∈ texts, Describes text path)
      ∨ ∃ text ∈ texts, ∃ name ∈ names path, IsName name ∧ Leaves text.toList name
  := by
  obtain ⟨rfl, hglobs⟩ := eq_map_of_readPatterns hread
  have hdescribes (e : Exclusion) (he : e ∈ patterns) :
      e.describes path = true ↔ Describes e.text path := by
    simp [Exclusion.describes_eq, Describes, hglobs e he]
  rw [isExcluded, Bool.or_eq_true, List.any_eq_true, List.any_eq_true]
  simp only [Exclusion.namesSegment_iff hrelative, List.mem_map, exists_exists_and_eq_and]
  apply or_congr_left
  apply exists_congr fun e => and_congr_right (hdescribes e)

/-- If two asterisks stand in brackets only as a component of their own, as they do everywhere else,
given patterns exclude a relative path exactly if one of them describes it, or is the name of one of
its components with any directories before and after it. -/
theorem isExcluded_iff_around {texts : List String} {patterns : List Exclusion}
    (hread : readPatterns texts = .ok patterns) {path : String}
    (hrelative : path.toList.head? ≠ some '/')
    (hbracket : ∀ text ∈ texts, '[' ∈ text.toList → Isolated true text.toList) :
  isExcluded patterns path = true
    ↔ (∃ text ∈ texts, Describes text path)
      ∨ ∃ text ∈ texts, ∃ name ∈ names path,
        IsName name ∧ ∃ m n, text.toList = around m n name
  := by
  obtain ⟨htexts, hglobs⟩ := eq_map_of_readPatterns hread
  have hisolated (text : String) (htext : text ∈ texts) : Isolated true text.toList := by
    by_cases h : '[' ∈ text.toList
    · apply hbracket text htext h
    · rw [htexts] at htext
      obtain ⟨e, he, rfl⟩ := List.mem_map.mp htext
      apply isolated_of_isSome_readFrom h (Option.isSome_of_eq_some (hglobs e he))
  rw [isExcluded_iff_leaves hread hrelative]
  apply or_congr_right
  apply exists_congr fun text => and_congr_right fun htext => ?_
  apply exists_congr fun name => and_congr_right fun _ => and_congr_right fun hname => ?_
  exact leaves_iff_around (hisolated text htext) hname

/-- Given patterns exclude a relative path exactly if one of them describes it or leaves the name of
one of its components.  Patterns with two asterisks only as components of their own leave that name
exactly if they are the name with any directories before and after it, each any number of times, and
so also if they are the name alone or one at the root of the project.  If any directories stand once
before and once after all such names, only patterns that describe the path and those of its
components exclude it. -/
theorem isExcluded_iff {texts : List String} {patterns : List Exclusion}
    (hread : readPatterns texts = .ok patterns) {path : String}
    (hrelative : path.toList.head? ≠ some '/') :
  (isExcluded patterns path = true
      ↔ (∃ text ∈ texts, Describes text path)
        ∨ ∃ text ∈ texts, ∃ name ∈ names path, IsName name ∧ Leaves text.toList name)
    ∧ ((∀ text ∈ texts, '[' ∈ text.toList → Isolated true text.toList) →
      (isExcluded patterns path = true
          ↔ (∃ text ∈ texts, Describes text path)
            ∨ ∃ text ∈ texts, ∃ name ∈ names path,
              IsName name ∧ ∃ m n, text.toList = around m n name)
        ∧ ((∀ text ∈ texts, ∀ m n, ∀ name ∈ names path,
            IsName name → text.toList = around m n name → m = 1 ∧ n = 1) →
          (isExcluded patterns path = true
            ↔ (∃ text ∈ texts, Describes text path)
              ∨ ∃ text ∈ texts, ∃ name ∈ names path,
                IsName name ∧ text.toList = above ++ name ++ below)))
  := by
  refine ⟨isExcluded_iff_leaves hread hrelative, fun hbracket => ?_⟩
  have haround := isExcluded_iff_around hread hrelative hbracket
  refine ⟨haround, fun hdirectory => ?_⟩
  rw [haround]
  apply or_congr_right
  apply exists_congr fun text => and_congr_right fun htext => ?_
  apply exists_congr fun name => and_congr_right fun hmem => and_congr_right fun hname => ?_
  constructor
  · rintro ⟨m, n, h⟩
    obtain ⟨rfl, rfl⟩ := hdirectory text htext m n name hmem hname h
    rw [h]
    simp [around]
  · intro h
    refine ⟨1, 1, ?_⟩
    rw [h]
    simp [around]

/-- A file in a directory that a pattern names is excluded. -/
theorem isExcluded_iff_generated :
  ∃ patterns, readPatterns ["**/generated/**"] = .ok patterns
    ∧ "src/generated/Icon.tsx".toList.head? ≠ some '/'
    ∧ isExcluded patterns "src/generated/Icon.tsx" = true
  := by
  have htext : "**/generated/**".toList = around 1 1 "generated".toList := by decide
  have hgenerated : IsName "generated".toList := ⟨by decide, by decide, by decide⟩
  have hrelative : "src/generated/Icon.tsx".toList.head? ≠ some '/' := by decide
  obtain ⟨patterns, hread⟩ : ∃ patterns, readPatterns ["**/generated/**"] = .ok patterns :=
    ⟨_, rfl⟩
  refine ⟨patterns, hread, hrelative, ?_⟩
  apply (((isExcluded_iff hread hrelative).2 _).2 _).mpr
  · refine .inr ⟨_, List.mem_singleton_self _, "generated".toList, by decide, hgenerated, htext⟩
  · intro text h hbracket
    obtain rfl := List.mem_singleton.mp h
    exact absurd hbracket (by decide)
  · intro text h m n name _ hname h'
    obtain rfl := List.mem_singleton.mp h
    rw [htext] at h'
    obtain ⟨rfl, rfl, -⟩ := around_inj hgenerated hname h'
    exact ⟨rfl, rfl⟩

/-- A directory at the root of the project is excluded in every other directory, too. -/
theorem isExcluded_lib :
  ∃ patterns, readPatterns ["lib/**"] = .ok patterns
    ∧ isExcluded patterns "src/lib/Logo.tsx" = true
    ∧ ¬Describes "lib/**" "src/lib/Logo.tsx"
    ∧ ∀ name, "lib/**".toList ≠ above ++ name ++ below
  := by
  refine ⟨_, rfl, by decide, ?_, ?_⟩
  · rintro ⟨glob, hglob, hcovers⟩
    obtain rfl := Option.some.inj hglob
    revert hcovers
    decide
  · intro name h
    have hfirst : "lib/**".toList.head? = some '*' := by
      rw [h]
      rfl
    exact absurd hfirst (by decide)

end AccessAudit.Discovery
