import AccessAudit.Proofs.Markup.TagCase
import AccessAudit.Rule.Structural

/-!
# The case of letters in tags and the rules

On pages whose tags differ in the case of ASCII letters only, the structural rules have the same
findings in the same order.  Two of them quote the tag in their messages; there the messages
differ in the case of that tag, and in nothing else.
-/

namespace AccessAudit.Rule

open Markup

/-- Findings that differ in nothing but the case of a tag, which their messages quote between two
texts. -/
def Requoted (before after : String) (f f' : Finding) : Prop :=
  ∃ tag tag', Text.lower tag = Text.lower tag' ∧ f.message = before ++ tag ++ after
    ∧ f' = { f with message := before ++ tag' ++ after }

variable {d : Document} {page page' : Page}

/-! ### Single findings -/

section

variable {e e' : Element} (h : e.Recased e')

include h

theorem requoted_roleFinding (severity : Severity) :
  Requoted "Clickable <" "> has no role; use <button> or add role=\"button\""
    (roleFinding severity d e) (roleFinding severity d e')
  := by
  refine ⟨e.tag, e'.tag, h.tag, rfl, ?_⟩
  rw [roleFinding, roleFinding, onLine, onLine, h.line]

theorem requoted_labelFinding :
  Requoted "<" "> has no associated label" (labelFinding d e) (labelFinding d e')
  := by
  refine ⟨e.tag, e'.tag, h.tag, rfl, ?_⟩
  rw [labelFinding, labelFinding, onLine, onLine, h.line]

theorem contrastFinding?_eq_of_recased :
  contrastFinding? d e = contrastFinding? d e'
  := by
  rw [contrastFinding?, contrastFinding?, h.attributes, h.line]

end

/-! ### Rules -/

section

variable (h : List.Forall₂ Element.Recased page.elements page'.elements)

include h

/-- A rule that reports each element which a query selects has related findings, if the query sees
no case and the findings of single elements are related. -/
theorem forall₂_map_filter {R : Finding → Finding → Prop} {select : Element → Bool}
    {found : Element → Finding} (hselect : ∀ e e', e.Recased e' → select e = select e')
    (hfound : ∀ e e', e.Recased e' → R (found e) (found e')) :
  List.Forall₂ R ((page.elements.filter select).map found)
    ((page'.elements.filter select).map found)
  := by
  apply List.rel_map _ (filter_recased h hselect)
  apply hfound

/-- The rule on headings finds the same. -/
theorem headingStructure_findings_eq_of_recased :
  headingStructure.findings d page = headingStructure.findings d page'
  := by
  have hheadings := Page.headings_recased h
  have hlines := map_eq_of_recased hheadings fun _ _ he => he.line
  have hempty : page.headings.isEmpty = page'.headings.isEmpty := by
    rw [Bool.eq_iff_iff, List.isEmpty_iff_length_eq_zero, List.isEmpty_iff_length_eq_zero,
      hheadings.length_eq]
  simp only [headingStructure, hempty, headingReport_eq_of_recased hheadings, hlines]

/-- The rules that quote no tag find the same. -/
theorem findings_eq_of_recased {rule : StructuralRule} (hrule : rule ∈ structuralRules)
    (hid : rule.id ∉ ["interactive-role", "form-control-label"]) :
  rule.findings d page = rule.findings d page'
  := by
  simp only [structuralRules, List.mem_cons, List.not_mem_nil, or_false] at hrule
  obtain rfl | rfl | rfl | rfl | rfl | rfl | rfl := hrule
  · exact absurd (by decide) hid
  · exact absurd (by decide) hid
  · rw [← List.forall₂_eq_eq_eq]
    apply forall₂_map_filter h fun _ _ he => he.lacksAlt_eq
    intro e e' he
    rw [altFinding, altFinding, he.line]
  · rw [← List.forall₂_eq_eq_eq]
    apply forall₂_map_filter h fun _ _ he => he.lacksContent_eq
    intro e e' he
    rw [buttonFinding, buttonFinding, he.line]
  · apply headingStructure_findings_eq_of_recased h
  · simp only [landmarkRegions, Page.landmarks_eq_of_recased h]
  · apply filterMap_eq_of_recased h
    intro e e' he
    apply contrastFinding?_eq_of_recased he

/-- The case of ASCII letters in tags does not matter: it is the same positions that have a tag, in
whatever case the tag is asked for, that lack a role, a label, a text or content, and that are
headings; the landmarks and the reports on headings and landmarks are the same; and so are the
findings of the structural rules, but for the tag that two of them quote. -/
theorem analysis_of_recased (d : Document) :
  (∀ tag tag', Text.lower tag = Text.lower tag' →
      positions (·.hasTag tag) page.elements = positions (·.hasTag tag') page'.elements)
    ∧ (∀ select ∈ [Element.lacksRole, Element.lacksLabel, Element.lacksAlt, Element.lacksContent,
        fun e => e.headingLevel?.isSome],
        positions select page.elements = positions select page'.elements)
    ∧ List.Forall₂ Element.Recased page.headings page'.headings
    ∧ page.landmarks = page'.landmarks
    ∧ headingReport page.headings = headingReport page'.headings
    ∧ headingReport page.elements = headingReport page'.elements
    ∧ landmarkReport page.landmarks = landmarkReport page'.landmarks
    ∧ (∀ rule ∈ structuralRules, rule.id ∉ ["interactive-role", "form-control-label"] →
        rule.findings d page = rule.findings d page')
    ∧ (∀ severity, List.Forall₂
        (Requoted "Clickable <" "> has no role; use <button> or add role=\"button\"")
        ((interactiveRole severity).findings d page) ((interactiveRole severity).findings d page'))
    ∧ List.Forall₂ (Requoted "<" "> has no associated label")
        (formControlLabel.findings d page) (formControlLabel.findings d page')
  := by
  have hheadings := Page.headings_recased h
  have hlandmarks := Page.landmarks_eq_of_recased h
  refine ⟨?tags, ?queries, hheadings, hlandmarks, headingReport_eq_of_recased hheadings,
    headingReport_eq_of_recased h, congrArg landmarkReport hlandmarks, ?rules, ?roles, ?labels⟩
  case tags =>
    intro tag tag' htag
    apply positions_eq_of_recased h
    intro e e' he
    apply he.hasTag_eq htag
  case queries =>
    simp only [List.mem_cons, List.not_mem_nil, or_false]
    rintro select (rfl | rfl | rfl | rfl | rfl)
    · apply positions_eq_of_recased h fun _ _ he => he.lacksRole_eq
    · apply positions_eq_of_recased h fun _ _ he => he.lacksLabel_eq
    · apply positions_eq_of_recased h fun _ _ he => he.lacksAlt_eq
    · apply positions_eq_of_recased h fun _ _ he => he.lacksContent_eq
    · apply positions_eq_of_recased h fun _ _ he => congrArg Option.isSome he.headingLevel?_eq
  case rules =>
    intro rule
    apply findings_eq_of_recased h
  case roles =>
    intro severity
    apply forall₂_map_filter h fun _ _ he => he.lacksRole_eq
    intro e e' he
    apply requoted_roleFinding he
  case labels =>
    apply forall₂_map_filter h fun _ _ he => he.lacksLabel_eq
    intro e e' he
    apply requoted_labelFinding he

end

/-- A page with capital letters in its tags. -/
def capitalPage : Page :=
  ⟨[⟨"MAIN", 1, [], true, false⟩, ⟨"H2", 2, [], true, false⟩,
    ⟨"Div", 3, [("onClick", .expression)], true, false⟩, ⟨"INPUT", 4, [], false, true⟩,
    ⟨"h4", 5, [], true, false⟩, ⟨"Button", 6, [], false, true⟩], []⟩

/-- The same page with small letters in most of its tags. -/
def smallPage : Page :=
  ⟨[⟨"main", 1, [], true, false⟩, ⟨"h2", 2, [], true, false⟩,
    ⟨"div", 3, [("onClick", .expression)], true, false⟩, ⟨"input", 4, [], false, true⟩,
    ⟨"H4", 5, [], true, false⟩, ⟨"button", 6, [], false, true⟩], []⟩

/-- In both pages it is the third element that is a `div` and lacks a role; the headings and the
landmarks have the same reports, and the findings are the same but for the tags that are quoted. -/
theorem analysis_of_recased_two_pages :
  let d := Document.of "." "a.tsx" "<main>\n<h2>\n"
  List.Forall₂ Element.Recased capitalPage.elements smallPage.elements
    ∧ positions (·.hasTag "dIV") capitalPage.elements
        = positions (·.hasTag "DIv") smallPage.elements
    ∧ positions Element.lacksRole capitalPage.elements
        = positions Element.lacksRole smallPage.elements
    ∧ positions Element.lacksRole smallPage.elements = [2]
    ∧ headingReport capitalPage.headings = headingReport smallPage.headings
    ∧ landmarkReport capitalPage.landmarks = landmarkReport smallPage.landmarks
    ∧ buttonLabel.findings d capitalPage = buttonLabel.findings d smallPage
    ∧ List.Forall₂ (Requoted "Clickable <" "> has no role; use <button> or add role=\"button\"")
        ((interactiveRole .low).findings d capitalPage)
        ((interactiveRole .low).findings d smallPage)
    ∧ List.Forall₂ (Requoted "<" "> has no associated label")
        (formControlLabel.findings d capitalPage) (formControlLabel.findings d smallPage)
  := by
  intro d
  have hpages : List.Forall₂ Element.Recased capitalPage.elements smallPage.elements := by
    simp only [capitalPage, smallPage, List.forall₂_cons, List.forall₂_nil_left_iff, and_true]
    refine ⟨?_, ?_, ?_, ?_, ?_, ?_⟩ <;> refine ⟨by decide +kernel, rfl, rfl, rfl, rfl⟩
  obtain ⟨tags, queries, -, -, headings, -, landmarks, rules, roles, labels⟩ :=
    analysis_of_recased hpages d
  refine ⟨hpages, tags _ _ (by decide +kernel), queries _ (by simp), by decide +kernel, headings,
    landmarks, ?_, roles .low, labels⟩
  apply rules _ _ (by decide)
  simp [structuralRules]

end AccessAudit.Rule
