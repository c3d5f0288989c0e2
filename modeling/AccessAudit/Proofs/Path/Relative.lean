import AccessAudit.Document
import AccessAudit.Proofs.Path.Components
import AccessAudit.Proofs.Text.Occurrence

/-!
# Relative paths

A path seen from a root that its components begin with has the remaining components, and is found
again below the root.  Any other path stays as it is, also one that begins with the characters of
the root.  So under one root the reported path of a file tells which file it is.
-/

namespace AccessAudit.Path

/-! ### Pieces that say nothing -/

/-- Leaving out the first pieces that say something leaves out their components. -/
theorem filterMap_dropComponents (n : Nat) (parts : List (List Char)) :
  (dropComponents n parts).filterMap ofPiece? = (parts.filterMap ofPiece?).drop n
  := by
  fun_induction dropComponents n parts with
  | case1 => rfl
  | case2 n => rfl
  | case3 n part parts hidle ih =>
    rw [List.filterMap_cons_none (ofPiece?_eq_none_iff.mpr hidle), ih]
  | case4 n part parts hidle ih =>
    obtain ⟨c, hc⟩ := Option.ne_none_iff_exists'.mp fun h => hidle (ofPiece?_eq_none_iff.mp h)
    rw [List.filterMap_cons_some hc, List.drop_succ_cons, ih]

theorem filterMap_eq_nil_of_isIdle {parts : List (List Char)}
    (h : ∀ piece ∈ parts, isIdle piece = true) :
  parts.filterMap ofPiece? = []
  := by
  rw [List.filterMap_eq_nil_iff]
  intro piece hpiece
  exact ofPiece?_eq_none_iff.mpr (h piece hpiece)

theorem filterMap_dropWhile_isIdle (parts : List (List Char)) :
  (parts.dropWhile isIdle).filterMap ofPiece? = parts.filterMap ofPiece?
  := by
  have hnil : (parts.takeWhile isIdle).filterMap ofPiece? = [] :=
    filterMap_eq_nil_of_isIdle (List.all_eq_true.mp List.all_takeWhile)
  conv => rhs; rw [← List.takeWhile_append_dropWhile (p := isIdle) (l := parts)]
  rw [List.filterMap_append, hnil, List.nil_append]

theorem exists_trimPieces_append (parts : List (List Char)) :
  ∃ idle, parts = trimPieces parts ++ idle ∧ ∀ piece ∈ idle, isIdle piece = true
  := by
  refine ⟨(parts.reverse.takeWhile isIdle).reverse, ?_, ?_⟩
  · rw [trimPieces, ← List.reverse_append, List.takeWhile_append_dropWhile, List.reverse_reverse]
  · intro piece hpiece
    exact List.all_eq_true.mp List.all_takeWhile piece (List.mem_reverse.mp hpiece)

/-- The last piece of trimmed ones says something. -/
theorem isIdle_getLast?_trimPieces {parts : List (List Char)} {piece : List Char}
    (h : (trimPieces parts).getLast? = some piece) :
  isIdle piece = false
  := by
  rw [trimPieces, List.getLast?_reverse] at h
  have := List.head?_dropWhile_not isIdle parts.reverse
  rw [h] at this
  simpa using this

theorem filterMap_trimPieces (parts : List (List Char)) :
  (trimPieces parts).filterMap ofPiece? = parts.filterMap ofPiece?
  := by
  obtain ⟨idle, hparts, hidle⟩ := exists_trimPieces_append parts
  conv => rhs; rw [hparts]
  rw [List.filterMap_append, filterMap_eq_nil_of_isIdle hidle, List.append_nil]

theorem mem_of_mem_trimPieces {parts : List (List Char)} {piece : List Char}
    (h : piece ∈ trimPieces parts) :
  piece ∈ parts
  := by
  obtain ⟨idle, hparts, -⟩ := exists_trimPieces_append parts
  rw [hparts]
  exact List.mem_append_left idle h

/-- The text of trimmed pieces is not empty unless there are none. -/
theorem joinPieces_trimPieces_ne_nil {parts : List (List Char)}
    (hslash : ∀ piece ∈ parts, '/' ∉ piece) (hne : trimPieces parts ≠ []) :
  joinPieces (trimPieces parts) ≠ []
  := by
  intro h
  have hinner := innerComponents_joinPieces fun piece hpiece =>
    hslash piece (mem_of_mem_trimPieces hpiece)
  rw [h] at hinner
  have hlast := isIdle_getLast?_trimPieces (List.getLast?_eq_some_getLast hne)
  have hnone := List.filterMap_eq_nil_iff.mp hinner.symm _ (List.getLast_mem hne)
  rw [ofPiece?_eq_none_iff.mp hnone] at hlast
  cases hlast

/-! ### Paths in pieces -/

/-- A path is its beginning and its pieces. -/
theorem toList_eq_startText_append (path : String) :
  path.toList = startText (split path).1 ++ joinPieces (split path).2
  := by
  have hpieces (body : List Char) : joinPieces (Text.pieces (· == '/') body) = body := by
    rw [Text.pieces_eq_splitOnP, ← List.splitOn_eq_splitOnP]
    apply List.intercalate_splitOn
  rw [split]
  split
  · rename_i body hpath
    rw [hpath, hpieces]
    rfl
  · split
    · rename_i rest hparts
      rw [← hpieces path.toList, hparts]
      cases rest <;> simp [joinPieces, startText]
    · rw [hpieces]
      rfl

/-- The pieces of a path have no slash. -/
theorem not_mem_of_mem_split {path : String} {piece : List Char} (h : piece ∈ (split path).2) :
  '/' ∉ piece
  := by
  have hpieces {body : List Char} (hmem : piece ∈ Text.pieces (· == '/') body) : '/' ∉ piece := by
    rw [Text.pieces_eq_splitOnP, ← List.splitOn_eq_splitOnP] at hmem
    exact not_mem_of_mem_splitOn hmem
  rw [split] at h
  split at h
  · exact hpieces h
  · split at h
    · rename_i rest hparts
      rcases List.mem_cons.mp h with rfl | h
      · simp
      · apply hpieces
        rw [hparts]
        exact List.mem_cons_of_mem _ h
    · exact hpieces h

/-- The beginning of a path stands for itself. -/
theorem components_startText (path : String) :
  components (String.ofList (startText (split path).1)) = (split path).1.toList
  := by
  have hcases (start : Option Component) (hstart : start ∈ [none, some .top, some .here]) :
      components (String.ofList (startText start)) = start.toList := by
    simp only [List.mem_cons, List.not_mem_nil, or_false] at hstart
    obtain rfl | rfl | rfl := hstart
    · decide +kernel
    · decide +kernel
    · decide +kernel
  apply hcases
  rw [split]
  split
  · simp
  · split
    · simp
    · simp

/-- Taking idle pieces off the end of a path keeps its components. -/
theorem components_after_zero (path : String) :
  components (after 0 path) = components path
  := by
  obtain ⟨idle, hparts, hidle⟩ := exists_trimPieces_append (split path).2
  have htext := toList_eq_startText_append path
  have hafter : after 0 path
      = String.ofList (startText (split path).1 ++ joinPieces (trimPieces (split path).2)) := rfl
  -- If all pieces are idle the beginning of the path is left; if none is
  -- taken off, the path itself.
  by_cases hne : trimPieces (split path).2 = []
  · have hnil : (split path).2.filterMap ofPiece? = [] := by
      rw [← filterMap_trimPieces, hne]
      rfl
    have hpath : components path = (split path).1.toList := by
      rw [components, hnil, List.append_nil]
    have hstart : startText (split path).1 ++ joinPieces [] = startText (split path).1 :=
      List.append_nil _
    rw [hafter, hne, hstart, components_startText, hpath]
  by_cases hidleNe : idle = []
  · rw [hidleNe, List.append_nil] at hparts
    rw [hafter, ← hparts, ← htext, String.ofList_toList]
  · -- What is taken off stands behind a slash and adds no components.
    have hbody : startText (split path).1 ++ joinPieces (trimPieces (split path).2) ≠ [] := by
      intro hbody
      apply joinPieces_trimPieces_ne_nil _ hne (List.append_eq_nil_iff.mp hbody).2
      intro piece hpiece
      exact not_mem_of_mem_split hpiece
    have hslash : ∀ piece ∈ idle, '/' ∉ piece := by
      intro piece hpiece
      have hmem : piece ∈ (split path).2 := by
        rw [hparts]
        exact List.mem_append_right _ hpiece
      apply not_mem_of_mem_split hmem
    have hpath : path = String.ofList
        (startText (split path).1 ++ joinPieces (trimPieces (split path).2)
          ++ '/' :: joinPieces idle) := by
      rw [← String.toList_inj, htext, String.toList_ofList]
      conv => lhs; rw [hparts, joinPieces_append hne hidleNe]
      rw [List.append_assoc]
    conv => rhs; rw [hpath]
    rw [components_append_slash hbody, innerComponents_joinPieces hslash,
      filterMap_eq_nil_of_isIdle hidle, List.append_nil, hafter]

/-- What is left of a text after some components. -/
theorem dropComponents_suffix (n : Nat) (parts : List (List Char)) :
  dropComponents n parts <:+ parts
  := by
  fun_induction dropComponents n parts with
  | case1 => exact List.suffix_refl _
  | case2 n => exact List.suffix_refl _
  | case3 n part parts hidle ih => exact ih.trans (List.suffix_cons part parts)
  | case4 n part parts hidle ih => exact ih.trans (List.suffix_cons part parts)

/-- The text of pieces without idle ones at its ends has no beginning, and their components. -/
theorem leading_and_innerComponents_trimmed {parts : List (List Char)}
    (hslash : ∀ piece ∈ parts, '/' ∉ piece) :
  leading (joinPieces (trimPieces (parts.dropWhile isIdle))) = []
    ∧ innerComponents (joinPieces (trimPieces (parts.dropWhile isIdle)))
      = parts.filterMap ofPiece?
  := by
  have hkept : ∀ piece ∈ trimPieces (parts.dropWhile isIdle), '/' ∉ piece := by
    intro piece hpiece
    exact hslash piece ((List.dropWhile_suffix isIdle).mem (mem_of_mem_trimPieces hpiece))
  constructor
  · apply leading_joinPieces hkept
    intro piece hpiece
    obtain ⟨idle, hparts, -⟩ := exists_trimPieces_append (parts.dropWhile isIdle)
    have hhead := List.head?_dropWhile_not isIdle parts
    rw [hparts, List.head?_append, Option.mem_def.mp hpiece] at hhead
    simpa using hhead
  · rw [innerComponents_joinPieces hkept, filterMap_trimPieces, filterMap_dropWhile_isIdle]

/-- Behind one component or more, the rest of a path has no beginning, and the remaining
components. -/
theorem leading_and_innerComponents_after {n : Nat} (hn : n ≠ 0) (path : String) :
  leading (after n path).toList = []
    ∧ innerComponents (after n path).toList = (components path).drop n
  := by
  have hlength : (split path).1.toList.length ≤ n := by
    have : (split path).1.toList.length ≤ 1 := by
      cases (split path).1 <;> simp
    omega
  have hafter : (after n path).toList = joinPieces (trimPieces
      ((dropComponents (n - (split path).1.toList.length) (split path).2).dropWhile isIdle)) := by
    rw [after]
    simp only [if_neg hn, String.toList_ofList]
  have hslash : ∀ piece ∈ dropComponents (n - (split path).1.toList.length) (split path).2,
      '/' ∉ piece := by
    intro piece hpiece
    exact not_mem_of_mem_split ((dropComponents_suffix _ _).mem hpiece)
  have htrimmed := leading_and_innerComponents_trimmed hslash
  rw [hafter]
  refine ⟨htrimmed.1, htrimmed.2.trans ?_⟩
  rw [filterMap_dropComponents, components, List.drop_append, List.drop_eq_nil_of_le hlength,
    List.nil_append]

theorem components_after (n : Nat) (path : String) :
  components (after n path) = (components path).drop n
  := by
  by_cases hn : n = 0
  · rw [hn, components_after_zero, List.drop_zero]
  · obtain ⟨hleading, hinner⟩ := leading_and_innerComponents_after hn path
    rw [components_eq, hleading, hinner, List.nil_append]

/-! ### Paths below a root -/

variable {root path : String}

theorem relativeTo_eq_after (h : components root <+: components path) :
  relativeTo root path = after (components root).length path
  := by
  rw [relativeTo, if_pos (Text.isSome_rest?_iff.mpr h)]

theorem relativeTo_eq_self (h : ¬components root <+: components path) :
  relativeTo root path = path
  := by
  rw [relativeTo, if_neg fun hrest => h (Text.isSome_rest?_iff.mp hrest)]

theorem components_append_relativeTo (h : components root <+: components path) :
  components root ++ components (relativeTo root path) = components path
  := by
  rw [relativeTo_eq_after h, components_after]
  obtain ⟨rest, hrest⟩ := h
  rw [← hrest, List.drop_left]

/-- Joined to the root again, the path seen from it has the components of the path. -/
theorem components_join_relativeTo (h : components root <+: components path) :
  components (join root (relativeTo root path)) = components path
  := by
  by_cases hroot : root = ""
  · have happend := components_append_relativeTo h
    rw [components_eq_nil_iff.mpr hroot, List.nil_append] at happend
    rw [join_eq_self (.inr hroot), happend]
  · have hn : (components root).length ≠ 0 := fun hlength =>
      hroot (components_eq_nil_iff.mp (List.length_eq_zero_iff.mp hlength))
    obtain ⟨hleading, hinner⟩ := leading_and_innerComponents_after hn path
    -- Without a beginning of its own, the rest is no path that stands for itself.
    have hslash : (relativeTo root path).toList.head? ≠ some '/' := by
      intro hhead
      rw [relativeTo_eq_after h] at hhead
      rw [leading, if_pos hhead] at hleading
      cases hleading
    rw [components_join hroot hslash, relativeTo_eq_after h, hinner]
    obtain ⟨rest, hrest⟩ := h
    rw [← hrest, List.drop_left]

/-- Whether a root ends in a piece that says something, so that further characters change its last
name. -/
def EndsInName (root : String) : Prop :=
  ∃ piece, (root.toList.splitOn '/').getLast? = some piece ∧ isIdle piece = false

/-- What begins with the same piece and a slash has the same beginning. -/
theorem leading_joinPieces_cons {part : List Char} {parts others : List (List Char)}
    (hparts : parts ≠ []) (hothers : others ≠ []) :
  leading (joinPieces (part :: parts)) = leading (joinPieces (part :: others))
  := by
  have hcons {ps : List (List Char)} (hps : ps ≠ []) :
      joinPieces (part :: ps) = part ++ '/' :: joinPieces ps := by
    have := joinPieces_append (List.cons_ne_nil part []) hps
    simpa [joinPieces] using this
  rw [hcons hparts, hcons hothers]
  by_cases hpart : part = []
  · rw [hpart]
    rfl
  · rw [leading_append_slash hpart, leading_append_slash hpart]

/-- Pieces go on in the last one. -/
theorem joinPieces_concat_append (init : List (List Char)) (last next : List Char)
    (others : List (List Char)) :
  joinPieces (init ++ [last]) ++ joinPieces (next :: others)
    = joinPieces (init ++ (last ++ next) :: others)
  := by
  have hlast : joinPieces [last] ++ joinPieces (next :: others)
      = joinPieces ((last ++ next) :: others) := by
    cases others <;> simp [joinPieces]
  by_cases hinit : init = []
  · rw [hinit]
    exact hlast
  · rw [joinPieces_append hinit (by simp), joinPieces_append hinit (by simp), ← hlast]
    simp

/-- A path that goes on in the last name of a root is not below it. -/
theorem not_prefix_of_endsInName (hroot : EndsInName root) {c : Char} (hc : c ≠ '/')
    (rest : List Char) :
  ¬components root <+: components (root ++ String.ofList (c :: rest))
  := by
  obtain ⟨last, hlast, hidle⟩ := hroot
  obtain ⟨init, hparts⟩ := List.getLast?_eq_some_iff.mp hlast
  obtain ⟨next, others, hnext⟩ := List.exists_cons_of_ne_nil (List.splitOn_ne_nil '/' (c :: rest))
  have hne : next ≠ [] := by
    obtain ⟨first, _, hrest⟩ := List.exists_cons_of_ne_nil (List.splitOn_ne_nil '/' rest)
    rw [List.splitOn_cons_eq_if_modifyHead, if_neg (by simpa using hc), hrest,
      List.modifyHead_cons, List.cons.injEq] at hnext
    rw [← hnext.1]
    exact List.cons_ne_nil c first
  have hidleNext : isIdle (last ++ next) = false := by
    obtain ⟨d, last, rfl⟩ := List.exists_cons_of_ne_nil (l := last) (by rintro rfl; cases hidle)
    obtain ⟨e, next, rfl⟩ := List.exists_cons_of_ne_nil hne
    simp [isIdle]
  -- The two paths have the same pieces up to the last one of the root.
  have hrootText : root.toList = joinPieces (init ++ [last]) := by
    rw [← hparts]
    exact (List.intercalate_splitOn '/').symm
  have hpathText : (root ++ String.ofList (c :: rest)).toList
      = joinPieces (init ++ (last ++ next) :: others) := by
    rw [String.toList_append, hrootText, String.toList_ofList, ← joinPieces_concat_append, ← hnext]
    exact congrArg _ (List.intercalate_splitOn '/').symm
  have hinit : ∀ piece ∈ init ++ [last], '/' ∉ piece := by
    intro piece hpiece
    rw [← hparts] at hpiece
    exact not_mem_of_mem_splitOn hpiece
  have hothers : ∀ piece ∈ next :: others, '/' ∉ piece := by
    intro piece hpiece
    rw [← hnext] at hpiece
    exact not_mem_of_mem_splitOn hpiece
  have hjoined : ∀ piece ∈ init ++ (last ++ next) :: others, '/' ∉ piece := by
    intro piece hpiece
    rcases List.mem_append.mp hpiece with hpiece | hpiece
    · exact hinit piece (List.mem_append_left _ hpiece)
    rcases List.mem_cons.mp hpiece with rfl | hpiece
    · have hlastSlash := hinit last (by simp)
      have hnextSlash := hothers next List.mem_cons_self
      simp [hlastSlash, hnextSlash]
    · exact hothers piece (List.mem_cons_of_mem _ hpiece)
  have hleading : leading (joinPieces (init ++ (last ++ next) :: others))
      = leading (joinPieces (init ++ [last])) := by
    cases init with
    | nil =>
      rw [leading_joinPieces hjoined (by simpa using hidleNext),
        leading_joinPieces hinit (by simpa using hidle)]
    | cons part init => exact leading_joinPieces_cons (by simp) (by simp)
  obtain ⟨a, ha⟩ := Option.ne_none_iff_exists'.mp
    fun h => Bool.eq_false_iff.mp hidle (ofPiece?_eq_none_iff.mp h)
  obtain ⟨b, hb⟩ := Option.ne_none_iff_exists'.mp
    fun h => Bool.eq_false_iff.mp hidleNext (ofPiece?_eq_none_iff.mp h)
  rw [components_eq, components_eq, hrootText, hpathText, hleading,
    innerComponents_joinPieces hinit, innerComponents_joinPieces hjoined, List.filterMap_append,
    List.filterMap_append, List.filterMap_cons_some ha, List.filterMap_cons_some hb,
    List.prefix_append_right_inj, List.prefix_append_right_inj, List.cons_prefix_cons]
  rintro ⟨rfl, -⟩
  have := eq_of_ofPiece?_eq_some ha hb
  simp [hne] at this

end AccessAudit.Path

namespace AccessAudit.Document

open AccessAudit.Path

/-- Findings in a file below the root are reported under a path that has the remaining components of
the path of the file, is the path again when it is joined to the root, and differs from the one of
any file below the root with another path.  A file that is not below the root is reported under its
path as it is spelt, in particular one whose path goes on in the last name of the root. -/
theorem file_location_identifies (root path text : String) (line column : Nat) :
  let file := ((of root path text).location line column).file
  (components root <+: components path →
      components root ++ components file = components path
        ∧ components (join root file) = components path
        ∧ ∀ path' text' line' column', components root <+: components path' →
          (components file = components ((of root path' text').location line' column').file
            ↔ components path = components path'))
    ∧ (¬components root <+: components path → file = path)
    ∧ ∀ c rest, EndsInName root → c ≠ '/' → path = root ++ String.ofList (c :: rest) →
      file = path
  := by
  intro file
  have hfile : file = relativeTo root path := rfl
  rw [hfile]
  refine ⟨fun hprefix => ⟨?remaining, ?joined, ?distinct⟩, relativeTo_eq_self, ?longer⟩
  case remaining => exact components_append_relativeTo hprefix
  case joined => exact components_join_relativeTo hprefix
  case distinct =>
    intro path' text' line' column' hprefix'
    have hpath := components_append_relativeTo hprefix
    have hpath' := components_append_relativeTo hprefix'
    have hfile' : ((of root path' text').location line' column').file = relativeTo root path' := rfl
    rw [hfile', ← hpath, ← hpath', List.append_cancel_left_eq]
  case longer =>
    rintro c rest hroot hc rfl
    exact relativeTo_eq_self (not_prefix_of_endsInName hroot hc rest)

/-- Two spellings of one path are reported as equal paths below a root with idle pieces; a path that
goes on in the last name of the root is reported as it is. -/
theorem file_location_identifies_spellings :
  let root := "./src//."
  let file := ((of root "./src/./ui//Nav.tsx/" "").location 7 3).file
  let file' := ((of root ".//src/ui/Nav.tsx" "").location 1 1).file
  file = "ui//Nav.tsx" ∧ file' = "ui/Nav.tsx"
    ∧ components (join root file) = components "./src/./ui//Nav.tsx/"
    ∧ components file = components file'
    ∧ ((of "src" "src-old/A.tsx" "").location 1 1).file = "src-old/A.tsx"
    ∧ ((of "/project" "other//Nav.tsx" "").location 1 1).file = "other//Nav.tsx"
  := by
  intro root file file'
  have hbelow : components root <+: components "./src/./ui//Nav.tsx/" := by decide +kernel
  have hbelow' : components root <+: components ".//src/ui/Nav.tsx" := by decide +kernel
  obtain ⟨-, hjoined, hdistinct⟩ :=
    (file_location_identifies root "./src/./ui//Nav.tsx/" "" 7 3).1 hbelow
  refine ⟨by decide +kernel, by decide +kernel, hjoined, ?_, ?_, ?_⟩
  · apply (hdistinct ".//src/ui/Nav.tsx" "" 1 1 hbelow').mpr
    decide +kernel
  · apply (file_location_identifies "src" "src-old/A.tsx" "" 1 1).2.2 '-' "old/A.tsx".toList
    · exact ⟨"src".toList, by decide +kernel, by decide⟩
    · decide
    · decide +kernel
  · apply (file_location_identifies "/project" "other//Nav.tsx" "" 1 1).2.1
    decide +kernel

end AccessAudit.Document
