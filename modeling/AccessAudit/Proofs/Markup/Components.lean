import AccessAudit.Markup.Components
import AccessAudit.Markup.Grammar.Rules
import Mathlib.Data.List.Forall2

/-!
# What components are

A function produces markup if there is markup anywhere inside it: the order in which the search goes
through its body, and the look at what a return statement returns, do not matter.  The components of
a source are what its top-level statements declare, one statement after the other.  `Declares` has a
rule for each way in which a statement can declare components or fail to declare any.
-/

namespace AccessAudit.Markup

/-! ### Markup inside a tree -/

namespace Tree

/-- A tree contains its children and what they contain. -/
inductive Contains : Tree → Tree → Prop where
  | child {t c : Tree} (hc : c ∈ t.children) : Contains t c
  | deeper {t c u : Tree} (hc : c ∈ t.children) (hu : Contains c u) : Contains t u

/-- A tree that is markup: an element in one tag, or one whose opening tag has a name. -/
inductive Tagged (t : Tree) : Prop where
  | selfClosing (kind : t.kind = .selfClosing)
  | opened {tag name : Tree} (kind : t.kind = .element) (opening : t.child? .openTag = some tag)
    (named : tag.child? .name = some name)

/-- There is markup somewhere inside a tree. -/
def HoldsMarkup (t : Tree) : Prop :=
  ∃ u, t.Contains u ∧ u.Tagged

variable {t u : Tree}

/-- Markup is recognized. -/
theorem isMarkup_iff :
  t.isMarkup = true ↔ t.Tagged
  := by
  constructor
  · intro h
    unfold isMarkup at h
    split at h
    · exact .selfClosing ‹_›
    · obtain ⟨tag, htag, hname⟩ := (Option.any_eq_true _ _).mp h
      obtain ⟨name, hname⟩ := Option.isSome_iff_exists.mp hname
      exact .opened ‹_› htag hname
    · cases h
  · rintro (kind | ⟨kind, opening, named⟩)
    · simp [isMarkup, kind]
    · simp [isMarkup, kind, opening, named]

/-- There is markup inside a tree if one of its children is markup or has markup inside. -/
theorem holdsMarkup_iff :
  t.HoldsMarkup ↔ ∃ c ∈ t.children, c.Tagged ∨ c.HoldsMarkup
  := by
  constructor
  · rintro ⟨u, hu, htagged⟩
    cases hu with
    | child hc => exact ⟨u, hc, .inl htagged⟩
    | deeper hc hu => exact ⟨_, hc, .inr ⟨u, hu, htagged⟩⟩
  · rintro ⟨c, hc, htagged | ⟨u, hu, htagged⟩⟩
    · exact ⟨c, .child hc, htagged⟩
    · exact ⟨u, .deeper hc hu, htagged⟩

end Tree

/-- What is left without its parentheses is one of the trees or is inside one of them. -/
theorem exists_of_returned? {ts : List Tree} {u : Tree} (h : returned? ts = some u) :
  ∃ t ∈ ts, u = t ∨ t.Contains u
  := by
  fun_induction returned? ts with
  | case1 => cases h
  | case2 t _ _ ih =>
    obtain ⟨c, hc, rfl | hu⟩ := ih h
    · exact ⟨t, List.mem_cons_self, .inr (.child hc)⟩
    · exact ⟨t, List.mem_cons_self, .inr (.deeper hc hu)⟩
  | case3 =>
    cases h
    exact ⟨u, List.mem_cons_self, .inl rfl⟩

/-- A tree that returns markup has markup inside. -/
theorem Tree.holdsMarkup_of_returnsMarkup {t : Tree} (h : t.returnsMarkup = true) :
  t.HoldsMarkup
  := by
  rw [returnsMarkup, Bool.and_eq_true] at h
  obtain ⟨u, hu, hmarkup⟩ := (Option.any_eq_true _ _).mp h.2
  obtain ⟨c, hc, rfl | hinside⟩ := exists_of_returned? hu
  · exact ⟨u, .child hc, isMarkup_iff.mp hmarkup⟩
  · exact ⟨u, .deeper hc hinside, isMarkup_iff.mp hmarkup⟩

/-- The search finds markup in the trees that are still to be seen if there is some. -/
theorem anyMarkup_iff (pending : List Tree) :
  anyMarkup pending = true ↔ ∃ t ∈ pending, t.Tagged ∨ t.HoldsMarkup
  := by
  fun_induction anyMarkup pending with
  | case1 => simp
  | case2 t rest ih =>
    rw [Bool.or_eq_true, Bool.or_eq_true, ih, Tree.isMarkup_iff]
    simp only [List.mem_append, List.mem_reverse, List.mem_cons, or_and_right, exists_or,
      exists_eq_left, or_assoc]
    -- Markup that is returned is inside the tree, so the look at it adds nothing.
    rw [← Tree.holdsMarkup_iff, ← @or_assoc (t.returnsMarkup = true),
      or_iff_right_of_imp Tree.holdsMarkup_of_returnsMarkup]

theorem Tree.producesMarkup_iff {t : Tree} :
  t.producesMarkup = true ↔ t.HoldsMarkup
  := by
  rw [producesMarkup, anyMarkup_iff, holdsMarkup_iff]
  simp only [List.mem_reverse]

/-! ### Declarations -/

/-- The text of a tree's name, if the name is one that counts; otherwise the tree is anonymous. -/
inductive Tree.Named (counts : Tree → Bool) (t : Tree) : String → Prop where
  | given {name : Tree} (hname : t.child? .name = some name) (hcounts : counts name = true) :
    Named counts t name.text
  | anonymous (hname : ∀ name, t.child? .name = some name → counts name = false) :
    Named counts t "Anonymous"

/-- A function used as a value that has markup inside. -/
structure Tree.ProducingFunction (t : Tree) : Prop where
  function : t.kind = .arrowFunction ∨ t.kind = .functionExpression
  markup : t.HoldsMarkup

/-- What a child of a variable declaration declares. -/
inductive DeclaresVariable : Tree → List Component → Prop where
  | function {t value : Tree} {text : String} (kind : t.kind = .declarator)
    (hvalue : t.child? .value = some value) (producing : value.ProducingFunction)
    (name : t.Named (fun n => n.kind == .identifier) text) :
    DeclaresVariable t [⟨text, .arrow, t.first⟩]
  | plainValue {t : Tree} (kind : t.kind = .declarator)
    (hvalue : ∀ value, t.child? .value = some value → ¬ value.ProducingFunction) :
    DeclaresVariable t []
  | other {t : Tree} (kind : t.kind ≠ .declarator) :
    DeclaresVariable t []

/-- What a statement declares. -/
inductive Declares : Tree → List Component → Prop where
  | function {t : Tree} {text : String} (kind : t.kind = .functionDeclaration)
    (markup : t.HoldsMarkup) (name : t.Named (fun _ => true) text) :
    Declares t [⟨text, .function, t.first⟩]
  | plainFunction {t : Tree} (kind : t.kind = .functionDeclaration) (markup : ¬ t.HoldsMarkup) :
    Declares t []
  | variableDeclaration {t : Tree} {parts : List (List Component)}
    (kind : t.kind = .lexicalDeclaration ∨ t.kind = .variableDeclaration)
    (inside : List.Forall₂ DeclaresVariable t.children parts) :
    Declares t parts.flatten
  | exportedDeclaration {t declaration : Tree} {cs : List Component} (kind : t.kind = .export_)
    (hdeclaration : t.child? .declaration = some declaration) (inside : Declares declaration cs) :
    Declares t cs
  | exportedFunction {t value : Tree} {text : String} (kind : t.kind = .export_)
    (hdeclaration : t.child? .declaration = none) (hvalue : t.child? .value = some value)
    (producing : value.ProducingFunction) (name : value.Named (fun _ => true) text) :
    Declares t [⟨text, if value.kind = .arrowFunction then .arrow else .function, t.first⟩]
  | exportedOther {t : Tree} (kind : t.kind = .export_)
    (hdeclaration : t.child? .declaration = none)
    (hvalue : ∀ value, t.child? .value = some value → ¬ value.ProducingFunction) :
    Declares t []
  | other {t : Tree}
    (kind : t.kind ∉
      [Kind.functionDeclaration, .lexicalDeclaration, .variableDeclaration, .export_]) :
    Declares t []

namespace Tree

variable {t : Tree}

/-- A tree has one name. -/
theorem named_iff {counts : Tree → Bool} {text : String} :
  t.Named counts text ↔ ((t.child? .name).filter counts).elim anonymous Tree.text = text
  := by
  constructor
  · rintro (⟨hname, hcounts⟩ | hname)
    · rw [hname, Option.filter_some_pos hcounts, Option.elim_some]
    · rw [Option.filter_eq_none_iff.mpr (by simpa using hname)]
      rfl
  · rintro rfl
    cases hname : t.child? .name with
    | none => exact .anonymous (by simp [hname])
    | some name =>
      cases hcounts : counts name with
      | true =>
        rw [Option.filter_some_pos hcounts]
        exact .given hname hcounts
      | false =>
        rw [Option.filter_some_neg (by simp [hcounts])]
        exact .anonymous (by simp [hname, hcounts])

theorem named_iff_nameText {text : String} :
  t.Named (fun _ => true) text ↔ t.nameText = text
  := by
  rw [named_iff, nameText]
  cases t.child? .name <;> rfl

theorem producingFunction_iff :
  (t.isCallable && t.producesMarkup) = true ↔ t.ProducingFunction
  := by
  rw [Bool.and_eq_true, producesMarkup_iff, isCallable, Bool.or_eq_true, beq_iff_eq, beq_iff_eq]
  exact ⟨fun ⟨hfunction, hmarkup⟩ => ⟨hfunction, hmarkup⟩, fun h => ⟨h.function, h.markup⟩⟩

end Tree

/-- What follows a condition is there if the condition holds. -/
theorem guard_bind_eq_some_iff {α : Type} {p : Prop} [Decidable p] {next : Unit → Option α}
    {x : α} :
  guard p >>= next = some x ↔ p ∧ next () = some x
  := by
  by_cases hp : p
  · rw [guard, if_pos hp]
    exact (and_iff_right hp).symm
  · rw [guard, if_neg hp]
    exact iff_of_false (Option.some_ne_none x).symm fun h => hp h.1

/-- The component of a variable is a function that is its value. -/
theorem declaratorComponent?_eq_some_iff {t : Tree} {c : Component} :
  declaratorComponent? t = some c ↔ t.kind = .declarator
    ∧ ∃ value, t.child? .value = some value ∧ value.ProducingFunction
    ∧ ∃ text, t.Named (fun n => n.kind == .identifier) text ∧ ⟨text, .arrow, t.first⟩ = c
  := by
  rw [declaratorComponent?, guard_bind_eq_some_iff, beq_iff_eq, Option.bind_eq_bind,
    Option.bind_eq_some_iff]
  apply and_congr_right'
  apply exists_congr
  intro value
  apply and_congr_right'
  rw [guard_bind_eq_some_iff, Tree.producingFunction_iff]
  simp only [Tree.named_iff, exists_eq_left']
  apply and_congr_right' Option.some_inj

/-- The component of a value is the function that it is. -/
theorem valueComponent?_eq_some_iff (line : Nat) {value : Tree} {c : Component} :
  valueComponent? line value = some c ↔ value.ProducingFunction
    ∧ ∃ text, value.Named (fun _ => true) text
    ∧ ⟨text, if value.kind = .arrowFunction then .arrow else .function, line⟩ = c
  := by
  rw [valueComponent?, guard_bind_eq_some_iff, Tree.producingFunction_iff]
  simp only [Tree.named_iff_nameText, exists_eq_left']
  apply and_congr_right' Option.some_inj

/-! ### What is collected from a statement -/

theorem Tree.declared_function {t : Tree} (kind : t.kind = .functionDeclaration) :
  t.declared = if t.producesMarkup then [⟨t.nameText, .function, t.first⟩] else []
  := by
  cases t
  cases kind
  rw [declared]
  rfl

/-- A variable declaration has the components of its variables. -/
theorem Tree.declared_variables {t : Tree}
    (kind : t.kind = .lexicalDeclaration ∨ t.kind = .variableDeclaration) :
  t.declared = t.children.filterMap declaratorComponent?
  := by
  cases t
  rcases kind with kind | kind
  · cases kind
    rw [declared]
    rfl
  · cases kind
    rw [declared]
    rfl

/-- An export has the components of what it declares, or the one that its value is. -/
theorem Tree.declared_export {t : Tree} (kind : t.kind = .export_) :
  t.declared = match t.child? .declaration with
    | some declaration => declaration.declared
    | none => ((t.child? .value).bind (valueComponent? t.first)).toList
  := by
  cases t
  cases kind
  rw [declared]
  simp only [first]
  split <;> simp_all

/-- Other statements have no components. -/
theorem Tree.declared_other {t : Tree} (kind : t.kind ∉
      [Kind.functionDeclaration, .lexicalDeclaration, .variableDeclaration, .export_]) :
  t.declared = []
  := by
  cases t
  simp only [Tree.kind, List.mem_cons, List.not_mem_nil, or_false, not_or] at kind
  unfold declared
  split
  all_goals simp_all

/-- A child of a variable declaration declares the component of its variable. -/
theorem declaresVariable_iff (t : Tree) (cs : List Component) :
  DeclaresVariable t cs ↔ (declaratorComponent? t).toList = cs
  := by
  constructor
  · rintro (⟨kind, hvalue, producing, name⟩ | ⟨kind, hvalue⟩ | kind)
    · rw [declaratorComponent?_eq_some_iff.mpr ⟨kind, _, hvalue, producing, _, name, rfl⟩]
      rfl
    · rw [Option.toList_eq_nil_iff, Option.eq_none_iff_forall_ne_some]
      intro c hc
      obtain ⟨-, value, hvalue', producing, -⟩ := declaratorComponent?_eq_some_iff.mp hc
      apply hvalue value hvalue' producing
    · rw [Option.toList_eq_nil_iff, Option.eq_none_iff_forall_ne_some]
      intro c hc
      apply kind (declaratorComponent?_eq_some_iff.mp hc).1
  · rintro rfl
    cases hc : declaratorComponent? t with
    | some c =>
      obtain ⟨kind, value, hvalue, producing, text, name, rfl⟩ :=
        declaratorComponent?_eq_some_iff.mp hc
      exact .function kind hvalue producing name
    | none =>
      by_cases kind : t.kind = .declarator
      · refine .plainValue kind ?_
        intro value hvalue producing
        have hsome := declaratorComponent?_eq_some_iff.mpr
          ⟨kind, value, hvalue, producing, _, Tree.named_iff.mpr rfl, rfl⟩
        cases hc.symm.trans hsome
      · exact .other kind

/-- What a relation gives for each of some things, if it is the relation of a function. -/
theorem exists_forall₂_iff {α β : Type} {R : α → List β → Prop} {f : α → List β}
    (h : ∀ x ys, R x ys ↔ f x = ys) {xs : List α} {ys : List β} :
  (∃ parts, List.Forall₂ R xs parts ∧ parts.flatten = ys) ↔ xs.flatMap f = ys
  := by
  have hR : R = fun x ys => f x = ys := by
    funext x ys
    apply propext (h x ys)
  have hmap : ∀ parts, List.Forall₂ R xs parts ↔ xs.map f = parts := by
    intro parts
    rw [← List.forall₂_eq_eq_eq, List.forall₂_map_left_iff, hR]
  simp only [hmap, exists_eq_left', List.flatMap_def]

/-- A statement declares no more than what is collected from it. -/
theorem Declares.declared_eq {t : Tree} {cs : List Component} (h : Declares t cs) :
  t.declared = cs
  := by
  induction h with
  | function kind markup name =>
    rw [Tree.declared_function kind, if_pos (Tree.producesMarkup_iff.mpr markup),
      Tree.named_iff_nameText.mp name]
  | plainFunction kind markup =>
    rw [Tree.declared_function kind, if_neg (mt Tree.producesMarkup_iff.mp markup)]
  | variableDeclaration kind inside =>
    rw [Tree.declared_variables kind, List.filterMap_eq_flatMap_toList]
    exact (exists_forall₂_iff declaresVariable_iff).mp ⟨_, inside, rfl⟩
  | exportedDeclaration kind hdeclaration inside ih =>
    rw [Tree.declared_export kind, hdeclaration]
    apply ih
  | exportedFunction kind hdeclaration hvalue producing name =>
    rw [Tree.declared_export kind, hdeclaration, hvalue, Option.bind_some,
      (valueComponent?_eq_some_iff _).mpr ⟨producing, _, name, rfl⟩]
    rfl
  | exportedOther kind hdeclaration hvalue =>
    rw [Tree.declared_export kind, hdeclaration]
    rw [Option.toList_eq_nil_iff, Option.eq_none_iff_forall_ne_some]
    intro c hc
    obtain ⟨value, hvalue', hc⟩ := Option.bind_eq_some_iff.mp hc
    apply hvalue value hvalue' ((valueComponent?_eq_some_iff _).mp hc).1
  | other kind => exact Tree.declared_other kind

/-- What is collected from the children of a variable declaration is declared by it. -/
theorem declares_filterMap {t : Tree}
    (kind : t.kind = .lexicalDeclaration ∨ t.kind = .variableDeclaration) :
  Declares t (t.children.filterMap declaratorComponent?)
  := by
  obtain ⟨parts, inside, hparts⟩ := (exists_forall₂_iff declaresVariable_iff).mpr
    (rfl : t.children.flatMap _ = _)
  rw [List.filterMap_eq_flatMap_toList, ← hparts]
  exact .variableDeclaration kind inside

/-- What is collected from the value of an export is declared by it. -/
theorem declares_value {t : Tree} (kind : t.kind = .export_)
    (hdeclaration : t.child? .declaration = none) :
  Declares t ((t.child? .value).bind (valueComponent? t.first)).toList
  := by
  cases hc : (t.child? .value).bind (valueComponent? t.first) with
  | some c =>
    obtain ⟨value, hvalue, hc⟩ := Option.bind_eq_some_iff.mp hc
    obtain ⟨producing, text, name, rfl⟩ := (valueComponent?_eq_some_iff _).mp hc
    exact .exportedFunction kind hdeclaration hvalue producing name
  | none =>
    refine .exportedOther kind hdeclaration ?_
    intro value hvalue producing
    have hsome := (valueComponent?_eq_some_iff t.first).mpr
      ⟨producing, _, Tree.named_iff_nameText.mpr rfl, rfl⟩
    rw [hvalue, Option.bind_some] at hc
    cases hc.symm.trans hsome

/-- What is collected from a statement is declared by it. -/
theorem declares_declared (t : Tree) :
  Declares t t.declared
  := by
  fun_induction Tree.declared t with
  | case1 _ _ _ _ _ t hmarkup =>
    exact .function rfl (Tree.producesMarkup_iff.mp hmarkup) (Tree.named_iff_nameText.mpr rfl)
  | case2 _ _ _ _ _ t hmarkup =>
    exact .plainFunction rfl (mt Tree.producesMarkup_iff.mpr hmarkup)
  | case3 => apply declares_filterMap (.inl rfl)
  | case4 => apply declares_filterMap (.inr rfl)
  | case5 _ _ _ _ _ _ t hdeclaration ih => exact .exportedDeclaration rfl hdeclaration ih
  | case6 _ _ _ _ _ t hdeclaration => apply declares_value rfl hdeclaration
  | case7 kind _ _ _ _ _ hfunction hlexical hvariable hexport =>
    apply Declares.other
    simp only [List.mem_cons, List.not_mem_nil, or_false]
    rintro (h | h | h | h)
    · apply hfunction h
    · apply hlexical h
    · apply hvariable h
    · apply hexport h

theorem declares_iff (t : Tree) (cs : List Component) :
  Declares t cs ↔ t.declared = cs
  := ⟨Declares.declared_eq, fun h => h ▸ declares_declared t⟩

/-! ### Components -/

/-- A tree produces markup if there is markup anywhere inside it, and the components of a source are
what its statements declare, in their order. -/
theorem components_eq_iff_declares :
  (∀ t : Tree, t.producesMarkup = true ↔ ∃ u, t.Contains u ∧ u.Tagged)
    ∧ ∀ (t : Tree) (cs : List Component), t.components = cs
        ↔ ∃ parts, List.Forall₂ Declares t.children parts ∧ parts.flatten = cs
  := by
  constructor
  · intro t
    exact Tree.producesMarkup_iff
  · intro t cs
    exact (exists_forall₂_iff declares_iff).symm

example :
  (Grammar.parse? .tsx
      ("const A = () => (<p />), b = 1\n" ++
        "export default function () \x7b return <p /> \x7d").toList).map Tree.components
    = some [⟨"A", .arrow, 1⟩, ⟨"Anonymous", .function, 2⟩]
  := by
  decide +kernel

end AccessAudit.Markup
