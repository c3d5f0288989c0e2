import AccessAudit.Report.Basic

/-!
# Sorting findings

Findings are compared by the components of their paths, and then by their lines.  The comparison is
a total preorder, so the sorted form of a list is determined by three facts: it is a permutation of
the list, it is in order, and findings that compare as equal stand in it as they stand in the list.
`StableSort` states these facts for any comparison.  Sorting a report sorts its buckets in this
sense, and leaving members out of a list leaves them out of its sorted form.  Lists that differ only
in the order of members that are not tied (`TieEquiv`) have the same sorted form.
-/

namespace AccessAudit

open Std

/-! ### Comparison of paths and findings -/

/-- Comparing by a value that is compared by a total preorder is a total preorder. -/
theorem transCmp_on {α β : Type} {compare : β → β → Ordering} [TransCmp compare] (f : α → β) :
  TransCmp fun a b => compare (f a) (f b)
  := by
  refine { eq_swap := ?_, isLE_trans := ?_ }
  · intro a b
    exact @OrientedCmp.eq_swap _ compare _ (f a) (f b)
  · intro a b c
    exact @TransCmp.isLE_trans _ compare _ (f a) (f b) (f c)

namespace Path

/-- The text of a name; other components have none. -/
def Component.label : Component → String
  | .name text => text
  | _ => ""

/-- Names compare by their texts. -/
theorem Component.compare_name (a b : String) :
  Component.compare (.name a) (.name b) = Ord.compare a b
  := by
  change _ = compareOfLessAndEq a b
  rw [Component.compare, compareOfLessAndEq]
  by_cases hab : a < b
  · rw [if_pos hab, if_pos hab]
  · rw [if_neg hab, if_neg hab]
    by_cases hba : b < a
    · have hne : a ≠ b := by
        rintro rfl
        apply hab hba
      rw [if_pos hba, if_neg hne]
    · have heq : a = b := String.le_antisymm (String.not_lt.mp hba) (String.not_lt.mp hab)
      rw [if_neg hba, if_pos heq]

/-- Components compare by their ranks, and names then by their texts. -/
theorem Component.compare_eq_compareLex :
  Component.compare = compareLex (compareOn rank) (compareOn label)
  := by
  funext a b
  cases a <;> cases b
  case name.name a b =>
    rw [Component.compare_name]
    rfl
  all_goals rfl

instance : TransCmp Component.compare := by
  rw [Component.compare_eq_compareLex]
  infer_instance

/-- Lists of components compare lexicographically. -/
theorem compareAll_eq_compareLex :
  compareAll = List.compareLex Component.compare
  := by
  funext as bs
  induction as generalizing bs with
  | nil =>
    cases bs with
    | nil => rw [compareAll, List.compareLex_nil_nil]
    | cons => rw [compareAll, List.compareLex_nil_cons]
  | cons a as ih =>
    cases bs with
    | nil => rw [compareAll, List.compareLex_cons_nil]
    | cons b bs => rw [compareAll, List.compareLex_cons_cons, ih]

instance : TransCmp compareAll := by
  rw [compareAll_eq_compareLex]
  infer_instance

instance : TransCmp Path.compare :=
  transCmp_on components

instance : LawfulEqCmp Component.compare where
  compare_self := ReflCmp.compare_self
  eq_of_compare {a b} h := by
    cases a <;> cases b
    case name.name a b =>
      rw [Component.compare_name] at h
      rw [LawfulEqOrd.eq_of_compare h]
    all_goals first | rfl | cases h

instance : LawfulEqCmp compareAll := by
  rw [compareAll_eq_compareLex]
  infer_instance

theorem compare_eq_iff {a b : String} :
  Path.compare a b = .eq ↔ components a = components b
  := by
  rw [Path.compare]
  apply LawfulEqCmp.compare_eq_iff_eq

end Path

theorem Finding.compare_eq_compareLex :
  Finding.compare
    = compareLex (fun a b => Path.compare a.location.file b.location.file)
        (compareOn fun f => f.location.line)
  := rfl

instance : TransCmp Finding.compare := by
  have byPath : TransCmp fun a b : Finding => Path.compare a.location.file b.location.file :=
    transCmp_on fun f : Finding => f.location.file
  rw [Finding.compare_eq_compareLex]
  infer_instance

/-- Findings compare as equal exactly if they are on the same line of files with the same
components. -/
theorem Finding.compare_eq_iff {f g : Finding} :
  f.compare g = .eq ↔ Path.components f.location.file = Path.components g.location.file
    ∧ f.location.line = g.location.line
  := by
  rw [Finding.compare, Ordering.then_eq_eq, Path.compare_eq_iff, LawfulEqCmp.compare_eq_iff_eq]

/-! ### Stable sorts -/

section StableSort

variable {α : Type} {compare : α → α → Ordering}

/-- `sorted` is `items` in the order of a comparison, where members that compare as equal keep the
order that they have in `items`. -/
structure StableSort (compare : α → α → Ordering) (items sorted : List α) : Prop where
  perm : sorted.Perm items
  ordered : sorted.Pairwise fun a b => (compare a b).isLE
  ties : ∀ a, sorted.filter (fun b => compare a b == .eq)
    = items.filter fun b => compare a b == .eq

/-- Sorting by merging is stable. -/
theorem StableSort.mergeSort [TransCmp compare] (items : List α) :
  StableSort compare items (items.mergeSort fun a b => (compare a b).isLE)
  := by
  have trans : ∀ a b c : α, (compare a b).isLE → (compare b c).isLE → (compare a c).isLE :=
    fun _ _ _ => TransCmp.isLE_trans
  have total : ∀ a b : α, (compare a b).isLE || (compare b a).isLE := by
    intro a b
    rw [@OrientedCmp.eq_swap _ compare _ b a]
    cases compare a b <;> rfl
  have perm := List.mergeSort_perm items fun a b => (compare a b).isLE
  refine ⟨perm, List.pairwise_mergeSort trans total items, fun a => ?_⟩
  -- Tied members are in order, so sorting keeps them as a sublist; there are no others.
  have tied : (items.filter fun b => compare a b == .eq).Pairwise
      fun b c => (compare b c).isLE := by
    rw [List.pairwise_filter]
    apply List.pairwise_of_forall
    intro b c hb hc
    have hba := OrientedCmp.eq_symm (eq_of_beq hb)
    apply Ordering.isLE_of_eq_eq (TransCmp.eq_trans hba (eq_of_beq hc))
  have kept := List.sublist_mergeSort trans total tied List.filter_sublist
  have kept := kept.filter fun b => compare a b == .eq
  rw [List.filter_filter] at kept
  simp only [Bool.and_self] at kept
  symm
  apply kept.eq_of_length
  apply (perm.filter _).length_eq.symm

/-- Two lists in order with the same members, and with tied members in the same order, are
equal. -/
theorem eq_of_ordered_of_ties [TransCmp compare] :
    ∀ {s t : List α}, s.Perm t →
      (s.Pairwise fun a b => (compare a b).isLE) → (t.Pairwise fun a b => (compare a b).isLE) →
      (∀ a, s.filter (fun b => compare a b == .eq) = t.filter fun b => compare a b == .eq) →
      s = t
  | [], t, perm, _, _, _ => perm.nil_eq
  | a :: s, [], perm, _, _, _ => by simp at perm
  | a :: s, b :: t, perm, hs, ht, ties => by
    have hab : (compare a b).isLE := by
      cases List.mem_cons.mp (perm.mem_iff.mpr List.mem_cons_self) with
      | inl h => simp [h, ReflCmp.compare_self]
      | inr h => apply List.rel_of_pairwise_cons hs h
    have hba : (compare b a).isLE := by
      cases List.mem_cons.mp (perm.mem_iff.mp List.mem_cons_self) with
      | inl h => simp [h, ReflCmp.compare_self]
      | inr h => apply List.rel_of_pairwise_cons ht h
    have heq : compare a b = .eq := by
      rw [@OrientedCmp.eq_swap _ compare] at hba
      cases h : compare a b <;> simp [h] at hab hba ⊢
    -- The two heads are tied, so both come first among the members tied with them.
    have first := ties a
    simp only [List.filter_cons, ReflCmp.compare_self, heq, beq_self_eq_true, if_true,
      List.cons.injEq] at first
    obtain ⟨rfl, _⟩ := first
    have rest : s = t := by
      apply eq_of_ordered_of_ties perm.cons_inv hs.of_cons ht.of_cons
      intro c
      have := ties c
      rw [List.filter_cons, List.filter_cons] at this
      split at this
      · apply (List.cons.inj this).2
      · apply this
    rw [rest]

theorem StableSort.unique [TransCmp compare] {items s t : List α}
    (hs : StableSort compare items s) (ht : StableSort compare items t) :
  s = t
  := by
  apply eq_of_ordered_of_ties (hs.perm.trans ht.perm.symm) hs.ordered ht.ordered
  intro a
  rw [hs.ties, ht.ties]

/-- What is left of a sorted list is the sorted form of what is left of the list. -/
theorem StableSort.filter {items sorted : List α} (h : StableSort compare items sorted)
    (keep : α → Bool) :
  StableSort compare (items.filter keep) (sorted.filter keep)
  := by
  refine ⟨h.perm.filter keep, h.ordered.filter keep, fun a => ?_⟩
  rw [List.filter_filter, List.filter_filter]
  simp only [Bool.and_comm _ (keep _)]
  rw [← List.filter_filter, ← List.filter_filter, h.ties]

/-- Lists with the same members, in which members that compare as equal stand in the same order. -/
structure TieEquiv (compare : α → α → Ordering) (s t : List α) : Prop where
  perm : s.Perm t
  ties : ∀ a, s.filter (fun b => compare a b == .eq) = t.filter fun b => compare a b == .eq

variable {s t u : List α}

theorem TieEquiv.refl (s : List α) :
  TieEquiv compare s s
  := ⟨.refl s, fun _ => rfl⟩

theorem TieEquiv.trans (h : TieEquiv compare s t) (h' : TieEquiv compare t u) :
  TieEquiv compare s u
  := ⟨h.perm.trans h'.perm, fun a => (h.ties a).trans (h'.ties a)⟩

theorem TieEquiv.append_right (h : TieEquiv compare s t) (u : List α) :
  TieEquiv compare (s ++ u) (t ++ u)
  := by
  refine ⟨h.perm.append_right u, fun a => ?_⟩
  rw [List.filter_append, List.filter_append, h.ties]

theorem StableSort.tieEquiv (h : StableSort compare s t) :
  TieEquiv compare t s
  := ⟨h.perm, h.ties⟩

theorem StableSort.of_tieEquiv (h : StableSort compare s u) (htied : TieEquiv compare s t) :
  StableSort compare t u
  := by
  obtain ⟨perm, ties⟩ := h.tieEquiv.trans htied
  exact ⟨perm, h.ordered, ties⟩

end StableSort

end AccessAudit
