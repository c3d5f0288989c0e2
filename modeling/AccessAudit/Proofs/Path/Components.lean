import AccessAudit.Path
import AccessAudit.Proofs.Text.Lines

/-!
# Components of paths

A path has a beginning, which is a slash, a dot or nothing, and the components of its pieces.  What
stands behind a slash adds the components of its own pieces, whatever stands before.  So joining a
relative path to a directory puts its components after those of the directory.
-/

namespace AccessAudit.Path

/-! ### Pieces -/

/-- The pieces of a text have no slash. -/
theorem not_mem_of_mem_splitOn {s piece : List Char} (h : piece ∈ s.splitOn '/') :
  '/' ∉ piece
  := by
  induction s generalizing piece with
  | nil =>
    obtain rfl : piece = [] := by simpa using h
    simp
  | cons c s ih =>
    rw [List.splitOn_cons_eq_if_modifyHead] at h
    split at h
    · rcases List.mem_cons.mp h with rfl | h
      · simp
      · exact ih h
    · rename_i hc
      obtain ⟨first, rest, hs⟩ := List.exists_cons_of_ne_nil (List.splitOn_ne_nil '/' s)
      rw [hs, List.modifyHead_cons] at h
      rw [hs] at ih
      rcases List.mem_cons.mp h with rfl | h
      · have hfirst := ih List.mem_cons_self
        have hne : '/' ≠ c := by
          rintro rfl
          exact hc rfl
        simp [hfirst, hne]
      · exact ih (List.mem_cons_of_mem _ h)

theorem splitOn_joinPieces {parts : List (List Char)} (hslash : ∀ piece ∈ parts, '/' ∉ piece)
    (hne : parts ≠ []) :
  (joinPieces parts).splitOn '/' = parts
  := by
  apply List.splitOn_intercalate '/' hslash hne

/-- Pieces that stand one after the other have a slash between them. -/
theorem joinPieces_append {parts others : List (List Char)} (hparts : parts ≠ [])
    (hothers : others ≠ []) :
  joinPieces (parts ++ others) = joinPieces parts ++ '/' :: joinPieces others
  := by
  induction parts with
  | nil => exact absurd rfl hparts
  | cons part parts ih =>
    cases parts with
    | nil =>
      rw [List.singleton_append, joinPieces, List.intercalate_cons_of_ne_nil hothers]
      simp [joinPieces]
    | cons next parts =>
      have ih := ih (List.cons_ne_nil next parts)
      simp only [joinPieces, List.cons_append, List.intercalate_cons_cons] at ih ⊢
      rw [ih]
      simp

/-- A piece stands for no component exactly if it says nothing. -/
theorem ofPiece?_eq_none_iff {piece : List Char} :
  ofPiece? piece = none ↔ isIdle piece = true
  := by
  unfold ofPiece?
  split
  · simp [*]
  · rename_i hpiece
    split <;> simp [hpiece]

/-- Different pieces stand for different components. -/
theorem eq_of_ofPiece?_eq_some {piece other : List Char} {c : Component}
    (h : ofPiece? piece = some c) (h' : ofPiece? other = some c) :
  piece = other
  := by
  have parent_or_name {part : List Char} (hpart : ofPiece? part = some c) :
      part = ['.', '.'] ∧ c = .parent ∨ c = .name (String.ofList part) := by
    unfold ofPiece? at hpart
    split at hpart
    · cases hpart
    · split at hpart
      · exact .inl ⟨‹_›, (Option.some.inj hpart).symm⟩
      · exact .inr (Option.some.inj hpart).symm
  rcases parent_or_name h with ⟨rfl, rfl⟩ | rfl
  · rcases parent_or_name h' with ⟨rfl, -⟩ | hc
    · rfl
    · cases hc
  · rcases parent_or_name h' with ⟨-, hc⟩ | hc
    · cases hc
    · exact String.ofList_injective (Component.name.inj hc)

/-! ### Components of the pieces -/

/-- The components that the pieces of a text stand for. -/
def innerComponents (s : List Char) : List Component :=
  (s.splitOn '/').filterMap ofPiece?

/-- The component at the beginning of a path. -/
def leading (s : List Char) : List Component :=
  if s.head? = some '/' then [.top]
  else if (s.splitOn '/').head? = some ['.'] then [.here]
  else []

/-- A path has its beginning and the components of its pieces. -/
theorem components_ofList (s : List Char) :
  components (String.ofList s) = leading s ++ innerComponents s
  := by
  have hpieces (body : List Char) : Text.pieces (· == '/') body = body.splitOn '/' := by
    rw [Text.pieces_eq_splitOnP, List.splitOn_eq_splitOnP]
  rw [components, split, String.toList_ofList]
  split
  · -- The slash at the beginning ends an empty piece.
    rename_i body
    have hinner : innerComponents ('/' :: body) = innerComponents body := by
      rw [innerComponents, List.splitOn_cons_eq_if_modifyHead, if_pos (beq_self_eq_true '/')]
      rfl
    rw [hpieces, leading, hinner]
    rfl
  · rename_i hslash
    have hhead : s.head? ≠ some '/' := by
      cases s with
      | nil => simp
      | cons c s =>
        intro h
        obtain rfl : c = '/' := by simpa using h
        exact hslash s rfl
    rw [leading, if_neg hhead, innerComponents, hpieces]
    split
    · rename_i rest hparts
      rw [hparts]
      rfl
    · rename_i hdot
      rw [if_neg]
      · rfl
      · intro h
        obtain ⟨first, rest, hparts⟩ := List.exists_cons_of_ne_nil (List.splitOn_ne_nil '/' s)
        rw [hparts] at h
        obtain rfl : first = ['.'] := by simpa using h
        exact hdot rest hparts

theorem components_eq (path : String) :
  components path = leading path.toList ++ innerComponents path.toList
  := by
  rw [← components_ofList, String.ofList_toList]

@[simp]
theorem innerComponents_append_slash (s t : List Char) :
  innerComponents (s ++ '/' :: t) = innerComponents s ++ innerComponents t
  := by
  rw [innerComponents, List.splitOn_append_cons_self, List.filterMap_append]
  rfl

theorem innerComponents_of_not_mem {s : List Char} (h : '/' ∉ s) :
  innerComponents s = (ofPiece? s).toList
  := by
  rw [innerComponents, List.splitOn_eq_singleton h]
  cases hs : ofPiece? s with
  | none => simp [hs]
  | some c => simp [hs]

/-- The components of some pieces are those of their text. -/
theorem innerComponents_joinPieces {parts : List (List Char)}
    (hslash : ∀ piece ∈ parts, '/' ∉ piece) :
  innerComponents (joinPieces parts) = parts.filterMap ofPiece?
  := by
  by_cases hne : parts = []
  · rw [hne]
    rfl
  · rw [innerComponents, splitOn_joinPieces hslash hne]

/-- What stands behind a slash does not change the beginning. -/
theorem leading_append_slash {s : List Char} (hs : s ≠ []) (t : List Char) :
  leading (s ++ '/' :: t) = leading s
  := by
  have hhead : (s ++ '/' :: t).head? = s.head? := by
    rw [List.head?_append, List.head?_eq_some_head hs, Option.some_or]
  have hparts : ((s ++ '/' :: t).splitOn '/').head? = (s.splitOn '/').head? := by
    rw [List.splitOn_append_cons_self, List.head?_append,
      List.head?_eq_some_head (List.splitOn_ne_nil '/' s), Option.some_or]
  rw [leading, leading, hhead, hparts]

theorem components_append_slash {s : List Char} (hs : s ≠ []) (t : List Char) :
  components (String.ofList (s ++ '/' :: t))
    = components (String.ofList s) ++ innerComponents t
  := by
  rw [components_ofList, components_ofList, leading_append_slash hs, innerComponents_append_slash,
    List.append_assoc]

/-- A text that begins with a piece that says something has no beginning of its own. -/
theorem leading_joinPieces {parts : List (List Char)} (hslash : ∀ piece ∈ parts, '/' ∉ piece)
    (hhead : ∀ piece ∈ parts.head?, isIdle piece = false) :
  leading (joinPieces parts) = []
  := by
  cases parts with
  | nil => rfl
  | cons part parts =>
    have hpart := hhead part rfl
    obtain ⟨c, rest, rfl⟩ := List.exists_cons_of_ne_nil (l := part) (by rintro rfl; cases hpart)
    have hc : (joinPieces ((c :: rest) :: parts)).head? = some c := by
      cases parts <;> simp [joinPieces]
    rw [leading, hc, splitOn_joinPieces hslash (List.cons_ne_nil _ _), if_neg, if_neg]
    · intro h
      rw [List.head?_cons, Option.some.injEq] at h
      rw [h] at hpart
      cases hpart
    · intro h
      obtain rfl : c = '/' := by simpa using h
      simpa using hslash _ List.mem_cons_self

/-- Only the empty path has no components. -/
@[simp]
theorem components_eq_nil_iff {path : String} :
  components path = [] ↔ path = ""
  := by
  constructor
  · intro h
    rw [components_eq, List.append_eq_nil_iff] at h
    obtain ⟨hleading, hinner⟩ := h
    obtain ⟨first, rest, hparts⟩ :=
      List.exists_cons_of_ne_nil (List.splitOn_ne_nil '/' path.toList)
    rw [innerComponents, List.filterMap_eq_nil_iff, hparts] at hinner
    have hidle := ofPiece?_eq_none_iff.mp (hinner first List.mem_cons_self)
    rw [leading] at hleading
    split at hleading
    · cases hleading
    rename_i hslash
    split at hleading
    · cases hleading
    rename_i hdot
    rw [hparts] at hdot
    -- The first piece is neither a dot nor, without a slash after it, empty.
    have hempty : first = [] := by
      simpa [isIdle, show first ≠ ['.'] by simpa using hdot] using hidle
    cases hpath : path.toList with
    | nil => exact String.toList_eq_nil_iff.mp hpath
    | cons c s =>
      rw [hpath, List.splitOn_cons_eq_if_modifyHead] at hparts
      rw [hpath] at hslash
      rw [if_neg (by simpa using hslash)] at hparts
      obtain ⟨next, others, hs⟩ := List.exists_cons_of_ne_nil (List.splitOn_ne_nil '/' s)
      rw [hs, List.modifyHead_cons, List.cons.injEq, hempty] at hparts
      exact absurd hparts.1 (List.cons_ne_nil c next)
  · rintro rfl
    rfl

/-! ### Joining -/

/-- A path with a leading slash, or below the empty directory, stands for itself. -/
theorem join_eq_self {directory path : String}
    (h : path.toList.head? = some '/' ∨ directory = "") :
  join directory path = path
  := by
  rw [join, if_pos]
  rcases h with h | rfl
  · obtain ⟨s, hs⟩ := List.head?_eq_some_iff.mp h
    simp [Text.after?, hs, Text.rest?]
  · simp

/-- Joining a relative path to a directory puts its components after those of the directory. -/
theorem components_join {directory path : String} (hdirectory : directory ≠ "")
    (hpath : path.toList.head? ≠ some '/') :
  components (join directory path) = components directory ++ innerComponents path.toList
  := by
  have hrest : (Text.after? "/" path).isSome = false := by
    cases hs : path.toList with
    | nil => simp [Text.after?, hs, Text.rest?]
    | cons c s =>
      have hc : '/' ≠ c := by
        rintro rfl
        simp [hs] at hpath
      simp [Text.after?, hs, Text.rest?, hc]
  have hempty : directory.isEmpty = false := by simpa using hdirectory
  rw [join, hrest, hempty, if_neg (by simp)]
  split
  · -- The slash at the end of the directory is the one between the two.
    rename_i hlast
    obtain ⟨s, hs⟩ := List.getLast?_eq_some_iff.mp hlast
    obtain rfl : directory = String.ofList (s ++ ['/']) := by
      rw [← hs, String.ofList_toList]
    have htext : String.ofList (s ++ ['/']) ++ path
        = String.ofList (s ++ '/' :: path.toList) := by
      rw [← String.toList_inj]
      simp
    rw [htext]
    by_cases hne : s = []
    · rw [hne, components_ofList, components_ofList]
      have hinner := innerComponents_append_slash [] path.toList
      rw [List.nil_append] at hinner ⊢
      rw [hinner]
      rfl
    · rw [components_append_slash hne, components_append_slash hne]
      have hnil : innerComponents [] = [] := rfl
      rw [hnil, List.append_nil]
  · have htext : directory ++ "/" ++ path
        = String.ofList (directory.toList ++ '/' :: path.toList) := by
      rw [← String.toList_inj]
      simp
    have hne : directory.toList ≠ [] := by simpa using hdirectory
    rw [htext, components_append_slash hne, String.ofList_toList]

/-- A name below a directory is the file name of the path. -/
theorem fileName?_join (directory : String) {name : String} (hslash : '/' ∉ name.toList)
    (hname : ofPiece? name.toList = some (.name name)) :
  fileName? (join directory name) = some name
  := by
  have hinner : innerComponents name.toList = [.name name] := by
    rw [innerComponents_of_not_mem hslash, hname]
    rfl
  have hlast : (components (join directory name)).getLast? = some (.name name) := by
    by_cases hdirectory : directory = ""
    · rw [join_eq_self (.inr hdirectory), components_eq, hinner, List.getLast?_append]
      rfl
    · rw [components_join hdirectory, hinner, List.getLast?_append]
      · rfl
      · intro h
        exact hslash (List.mem_of_mem_head? h)
  rw [fileName?, hlast]

end AccessAudit.Path
