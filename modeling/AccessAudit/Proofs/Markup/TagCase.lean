import AccessAudit.Markup.Landmarks
import AccessAudit.Proofs.Markup.Headings
import Mathlib.Data.List.Forall2

/-!
# The case of letters in tags

Elements whose tags differ in the case of ASCII letters only are selected by the same queries, and
lists of such elements have the same headings, landmarks and reports.
-/

namespace AccessAudit

theorem Text.sameLetters_iff {s t : String} :
  sameLetters s t = true ↔ lower s = lower t
  := by
  rw [sameLetters, beq_iff_eq, lower, lower, String.ofList_inj]

namespace Markup

/-- Elements that differ in nothing but the case of ASCII letters in their tags. -/
structure Element.Recased (e e' : Element) : Prop where
  tag : Text.lower e.tag = Text.lower e'.tag
  line : e.line = e'.line
  attributes : e.attributes = e'.attributes
  hasChildren : e.hasChildren = e'.hasChildren
  selfClosing : e.selfClosing = e'.selfClosing

/-- The positions of the elements that a query selects. -/
def positions (select : Element → Bool) (elements : List Element) : List Nat :=
  elements.findIdxs select

/-! ### Queries -/

namespace Element.Recased

variable {e e' : Element} (h : e.Recased e')

include h

theorem hasTag_eq {tag tag' : String} (htag : Text.lower tag = Text.lower tag') :
  e.hasTag tag = e'.hasTag tag'
  := by
  rw [Bool.eq_iff_iff, hasTag, hasTag, Text.sameLetters_iff, Text.sameLetters_iff, h.tag, htag]

/-- They have one of some tags together. -/
theorem hasAnyTag_eq :
  e.hasAnyTag = e'.hasAnyTag
  := by
  funext tags
  have htag : e.hasTag = e'.hasTag := by
    funext tag
    apply h.hasTag_eq rfl
  rw [hasAnyTag, hasAnyTag, htag]

theorem has_eq :
  e.has = e'.has
  := by
  funext name
  rw [has, has, h.attributes]

theorem lacksRole_eq :
  e.lacksRole = e'.lacksRole
  := by
  simp only [lacksRole, isClickable, h.hasAnyTag_eq, h.has_eq, h.attributes]

theorem lacksLabel_eq :
  e.lacksLabel = e'.lacksLabel
  := by
  simp only [lacksLabel, hasAccessibleName, h.hasAnyTag_eq, h.has_eq]

theorem lacksAlt_eq :
  e.lacksAlt = e'.lacksAlt
  := by
  simp only [lacksAlt, h.hasTag_eq rfl, h.has_eq]

theorem lacksContent_eq :
  e.lacksContent = e'.lacksContent
  := by
  simp only [lacksContent, hasAccessibleName, h.hasTag_eq rfl, h.has_eq, h.hasChildren]

theorem headingLevel?_eq :
  e.headingLevel? = e'.headingLevel?
  := by
  ext level
  rw [headingLevel?_eq_some_iff, headingLevel?_eq_some_iff, h.hasTag_eq rfl]

theorem heading?_eq :
  e.heading? = e'.heading?
  := by
  rw [heading?, heading?, h.headingLevel?_eq, h.line]

theorem landmark?_eq :
  e.landmark? = e'.landmark?
  := by
  rw [landmark?, landmark?, h.tag]

end Element.Recased

/-! ### Lists of elements -/

section

variable {elements elements' : List Element}
  (h : List.Forall₂ Element.Recased elements elements')

include h

/-- A query that sees no case selects the same positions. -/
theorem positions_eq_of_recased {select select' : Element → Bool}
    (hselect : ∀ e e', e.Recased e' → select e = select' e') :
  positions select elements = positions select' elements'
  := by
  have hfrom (start : Nat) : elements.findIdxs select start = elements'.findIdxs select' start := by
    induction h generalizing start with
    | nil => rfl
    | cons he _ ih => rw [List.findIdxs_cons, List.findIdxs_cons, hselect _ _ he, ih]
  apply hfrom

theorem filter_recased {select : Element → Bool}
    (hselect : ∀ e e', e.Recased e' → select e = select e') :
  List.Forall₂ Element.Recased (elements.filter select) (elements'.filter select)
  := by
  apply List.rel_filter _ h
  intro e e' he
  simp only [hselect e e' he]

theorem map_eq_of_recased {α : Type} {f : Element → α}
    (hf : ∀ e e', e.Recased e' → f e = f e') :
  elements.map f = elements'.map f
  := by
  rw [← List.forall₂_eq_eq_eq]
  apply List.rel_map _ h
  apply hf

theorem filterMap_eq_of_recased {α : Type} {f : Element → Option α}
    (hf : ∀ e e', e.Recased e' → f e = f e') :
  elements.filterMap f = elements'.filterMap f
  := by
  have hmap (list : List Element) : list.filterMap f = (list.map f).filterMap id := by
    rw [List.filterMap_map, Function.id_comp]
  rw [hmap, hmap, map_eq_of_recased h hf]

theorem outline_eq_of_recased :
  outline elements = outline elements'
  := by
  rw [outline, outline, filterMap_eq_of_recased h fun _ _ he => he.heading?_eq]

theorem headingReport_eq_of_recased :
  headingReport elements = headingReport elements'
  := by
  apply headingReport_eq_of_outline_eq (outline_eq_of_recased h)

end

section

variable {page page' : Page} (h : List.Forall₂ Element.Recased page.elements page'.elements)

include h

theorem Page.headings_recased :
  List.Forall₂ Element.Recased page.headings page'.headings
  := by
  apply filter_recased h
  intro e e' he
  rw [he.headingLevel?_eq]

theorem Page.landmarks_eq_of_recased :
  page.landmarks = page'.landmarks
  := by
  rw [landmarks, landmarks, filterMap_eq_of_recased h fun _ _ he => he.landmark?_eq]

end

end Markup

end AccessAudit
