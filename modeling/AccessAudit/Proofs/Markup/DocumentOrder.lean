import AccessAudit.Proofs.Markup.Headings
import AccessAudit.Proofs.Markup.Preorder

/-!
# Lines in document order

In a tree whose children stand one after the other inside their parent, and whose elements begin
with their opening tags, the lines of the elements do not decrease from one element to the next.
Headings that are sorted by line then stay as they are.
-/

namespace AccessAudit.Markup

/-! ### Elements that trees build -/

/-- A tree with a named tag builds an element: the tag is its opening tag, or the tree itself if it
is an element in one tag. -/
inductive Tree.Builds : Tree → Element → Prop where
  | opened {t tag name : Tree} (kind : t.kind = .element) (opening : t.child? .openTag = some tag)
    (named : tag.child? .name = some name) :
    Builds t (elementOf tag (.ofTree name) (t.children.any isContent) false)
  | selfClosing {t name : Tree} (kind : t.kind = .selfClosing)
    (named : t.child? .name = some name) :
    Builds t (elementOf t (.ofTree name) false true)

namespace Tree

variable {t : Tree} {e : Element}

/-- The element of a tree is the one that it builds. -/
theorem element?_eq_some_iff :
  element? t = some e ↔ t.Builds e
  := by
  constructor
  · intro h
    unfold element? at h
    split at h
    · obtain ⟨tag, htag, h⟩ := Option.bind_eq_some_iff.mp h
      obtain ⟨label, hlabel, h⟩ := Option.bind_eq_some_iff.mp h
      obtain ⟨name, hname, rfl⟩ := Option.map_eq_some_iff.mp hlabel
      cases h
      exact .opened ‹_› htag hname
    · obtain ⟨label, hlabel, h⟩ := Option.bind_eq_some_iff.mp h
      obtain ⟨name, hname, rfl⟩ := Option.map_eq_some_iff.mp hlabel
      cases h
      exact .selfClosing ‹_› hname
    · cases h
  · rintro (⟨kind, opening, named⟩ | ⟨kind, named⟩)
    · simp [element?, TagName.ofTag?, kind, opening, named]
    · simp [element?, TagName.ofTag?, kind, named]

theorem preorderAll_eq_flatMap (ts : List Tree) :
  preorderAll ts = ts.flatMap preorder
  := by
  induction ts with
  | nil => rfl
  | cons t ts ih => rw [preorderAll, List.flatMap_cons, ih]

theorem preorder_of_builds (h : t.Builds e) :
  t.preorder = e :: t.children.flatMap preorder
  := by
  rw [preorder_eq, element?_eq_some_iff.mpr h, preorderAll_eq_flatMap]
  rfl

/-- A tree that builds no element has those of its children. -/
theorem preorder_of_not_builds (h : ∀ e, ¬ t.Builds e) :
  t.preorder = t.children.flatMap preorder
  := by
  have hnone : element? t = none := by
    rw [Option.eq_none_iff_forall_ne_some]
    intro e he
    apply h e (element?_eq_some_iff.mp he)
  rw [preorder_eq, hnone, preorderAll_eq_flatMap]
  rfl

end Tree

/-! ### Trees with places in order -/

/-- A tree whose children stand inside it and one after the other, and in which the opening tag of
an element is its first child. -/
inductive Tree.Ordered : Tree → Prop where
  | node {kind role first last text children}
    (spans : first ≤ last)
    (nested : ∀ c ∈ children, first ≤ c.first ∧ c.last ≤ last)
    (apart : children.Pairwise fun a b => a.last ≤ b.first)
    (opened : kind = .element → ∀ tag,
      children.find? (fun c => c.role == .openTag) = some tag → children.head? = some tag)
    (inside : ∀ c ∈ children, Ordered c) :
    Ordered (.node kind role first last text children)

namespace Tree.Ordered

variable {t : Tree} {e : Element}

theorem first_le_last (h : t.Ordered) :
  t.first ≤ t.last
  := by
  cases h with
  | node spans => apply spans

theorem withRole (h : t.Ordered) (r : Role) :
  (t.withRole r).Ordered
  := by
  cases h with
  | node spans nested apart opened inside => exact .node spans nested apart opened inside

/-- The element that a tree builds has a line of the tree, and its children do not begin before that
line. -/
theorem line_of_builds (h : t.Ordered) (he : t.Builds e) :
  t.first ≤ e.line ∧ e.line ≤ t.last ∧ ∀ c ∈ t.children, e.line ≤ c.first
  := by
  obtain ⟨spans, nested, apart, opened, inside⟩ := h
  cases he with
  | @opened tag _ hkind htag =>
    have hmem : tag ∈ _ := List.mem_of_find?_eq_some htag
    have hspans := (inside tag hmem).first_le_last
    refine ⟨(nested tag hmem).1, Nat.le_trans hspans (nested tag hmem).2, ?_⟩
    -- The tag is the first child, so every other child begins after it.
    intro c hc
    obtain ⟨rest, hrest⟩ := List.head?_eq_some_iff.mp (opened hkind tag htag)
    rw [hrest] at apart
    rw [children, hrest] at hc
    cases hc with
    | head => exact Nat.le_refl _
    | tail _ hc => exact Nat.le_trans hspans ((List.pairwise_cons.mp apart).1 c hc)
  | selfClosing => exact ⟨Nat.le_refl _, spans, fun c hc => (nested c hc).1⟩

/-- The elements of a tree have lines of the tree, which do not decrease. -/
theorem lines_preorder (h : t.Ordered) :
  (∀ e ∈ t.preorder, t.first ≤ e.line ∧ e.line ≤ t.last)
    ∧ t.preorder.Pairwise fun a b => a.line ≤ b.line
  := by
  induction h with
  | @node kind role first last text children spans nested apart opened inside ih =>
    have hordered : Ordered (.node kind role first last text children) :=
      .node spans nested apart opened inside
    -- An element below the root lies within one of the children, whose lines do not overlap.
    have hbelow : ∀ e ∈ children.flatMap preorder, ∃ c ∈ children, c.first ≤ e.line
        ∧ e.line ≤ c.last := by
      intro e he
      obtain ⟨c, hc, he⟩ := List.mem_flatMap.mp he
      exact ⟨c, hc, (ih c hc).1 e he⟩
    rw [preorder, preorderAll_eq_flatMap]
    constructor
    · intro e he
      rcases List.mem_append.mp he with he | he
      · have hbuilds := element?_eq_some_iff.mp (Option.mem_toList.mp he)
        obtain ⟨hfirst, hlast, -⟩ := hordered.line_of_builds hbuilds
        exact ⟨hfirst, hlast⟩
      · obtain ⟨c, hc, hfirst, hlast⟩ := hbelow e he
        exact ⟨Nat.le_trans (nested c hc).1 hfirst, Nat.le_trans hlast (nested c hc).2⟩
    · rw [List.pairwise_append]
      refine ⟨?_, ?_, ?_⟩
      · cases element? (.node kind role first last text children) with
        | none => exact .nil
        | some e => exact List.pairwise_singleton _ e
      · rw [List.pairwise_flatMap]
        refine ⟨fun c hc => (ih c hc).2, apart.imp_of_mem ?_⟩
        intro a b ha hb hab x hx y hy
        have hx := ((ih a ha).1 x hx).2
        have hy := ((ih b hb).1 y hy).1
        omega
      · intro a ha b hb
        have hbuilds := element?_eq_some_iff.mp (Option.mem_toList.mp ha)
        obtain ⟨-, -, hchildren⟩ := hordered.line_of_builds hbuilds
        obtain ⟨c, hc, hfirst, -⟩ := hbelow b hb
        exact Nat.le_trans (hchildren c hc) hfirst

end Tree.Ordered

/-! ### Headings -/

theorem outline_headings_eq {page : Page}
    (h : page.elements.Pairwise fun a b => a.line ≤ b.line) :
  outline page.headings = page.headings.filterMap Element.heading?
  := by
  apply outline_of_pairwise
  apply h.sublist List.filter_sublist

end AccessAudit.Markup
