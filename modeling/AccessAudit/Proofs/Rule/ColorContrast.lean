import AccessAudit.Contrast.Comparison
import AccessAudit.Proofs.Color.Spelling
import AccessAudit.Rule.Structural
import Mathlib.Data.List.Forall2
import Mathlib.Data.List.ReduceOption

/-!
# Colours of classes and colours by hand

The contrast of two colours can be judged in two ways: by the rule on the classes of an element, and
by a comparison of two colours that are spelled out.  The rule flags an element exactly if the
comparison of the colours of its classes fails, however they are spelled, and its finding says what
the comparison says.
-/

namespace AccessAudit

/-! ### Comparisons of swatches -/

namespace Comparison

variable {f b : Swatch} {text back fontSize fontWeight : String} {level : Level}

theorem check_of_spells (hf : f ∈ Palette.swatches) (hb : b ∈ Palette.swatches)
    (htext : Palette.Spells "text-" f text) (hback : Palette.Spells "bg-" b back) :
  (of text back fontSize fontWeight level).check
    = AccessAudit.check (some f.rgb) (some b.rgb) fontSize fontWeight level
  := by
  rw [of, Palette.parse?_of_spells hf (by decide) htext,
    Palette.parse?_of_spells hb (by decide) hback]

/-- The suggestions for two swatches of too little contrast do not depend on their spellings. -/
theorem suggestions_of_spells (hf : f ∈ Palette.swatches) (hb : b ∈ Palette.swatches)
    (htext : Palette.Spells "text-" f text) (hback : Palette.Spells "bg-" b back)
    (hfails : Check.valid? (of text back fontSize fontWeight level).check = some false) :
  (of text back fontSize fontWeight level).suggestions = suggestSwatches (some f) (some b)
  := by
  rw [of] at hfails ⊢
  rw [if_pos hfails, suggestColours, Palette.swatchOf?_of_spells hf (by decide) htext,
    Palette.swatchOf?_of_spells hb (by decide) hback]

end Comparison

/-! ### Swatches of a class list -/

namespace ClassList

theorem mem_swatches_of_last? {lead list : String} {s : Swatch}
    (h : last? (fun name => (Text.after? lead name).bind Palette.lookup?) list = some s) :
  s ∈ Palette.swatches
  := by
  obtain ⟨name, -, hname⟩ := List.mem_filterMap.mp (List.mem_of_getLast? h)
  obtain ⟨token, -, htoken⟩ := Option.bind_eq_some_iff.mp hname
  apply Palette.mem_swatches_of_lookup? htoken

/-- The colours of a class list are in the palette. -/
theorem mem_swatches_of_colours {list : String} {f b : Swatch}
    (h : colours list = ⟨some f, some b⟩) :
  f ∈ Palette.swatches ∧ b ∈ Palette.swatches
  := by
  obtain ⟨hf, hb⟩ := Colours.mk.inj h
  constructor
  · apply mem_swatches_of_last? hf
  · apply mem_swatches_of_last? hb

end ClassList

namespace Rule

open Markup

/-! ### The rule and the comparison -/

/-- The comparisons for an element: of the text colour and the background that its classes declare,
in any spelling, at level AA and with the size and weight that the classes give. -/
inductive Compares (e : Element) : Comparison → Prop where
  | colours {classes text back : String} {f b : Swatch}
    (hclasses : e.attributes.get? "className" = some (.string classes))
    (hcolours : ClassList.colours classes = ⟨some f, some b⟩)
    (htext : Palette.Spells "text-" f text) (hback : Palette.Spells "bg-" b back) :
    Compares e (.of text back (ClassList.typography classes).fontSize
      (ClassList.typography classes).fontWeight .aa)

/-- The finding with the outcome of a judgement as its message, and with the suggestions if there are
any. -/
def judgementFinding (d : Document) (e : Element) (outcome : Check) (suggestions : List String) :
    Finding :=
  { onLine d "color-contrast" .high e.line (Check.message outcome) contrastMinimum with
    suggestion := if suggestions = [] then none else some ("; ".intercalate suggestions) }

/-- What is found on an element: what its comparisons say if they fail, and nothing if they do not
fail or if there are none. -/
inductive Judges (d : Document) (e : Element) : Option Finding → Prop where
  | flagged {finding : Finding} (hsome : ∃ c, Compares e c)
    (hfails : ∀ c, Compares e c → Check.valid? c.check = some false
      ∧ judgementFinding d e c.check c.suggestions = finding) :
    Judges d e (some finding)
  | passed (hpasses : ∀ c, Compares e c → Check.valid? c.check ≠ some false) :
    Judges d e none

variable {d : Document} {e : Element}

/-- The rule judges the two swatches that the classes of an element declare. -/
theorem contrastFinding?_of_colours {classes : String} {f b : Swatch}
    (hclasses : e.attributes.get? "className" = some (.string classes))
    (hcolours : ClassList.colours classes = ⟨some f, some b⟩) {outcome : Check}
    (houtcome : check (some f.rgb) (some b.rgb) (ClassList.typography classes).fontSize
      (ClassList.typography classes).fontWeight .aa = outcome) :
  contrastFinding? d e
    = if Check.valid? outcome = some false then
        some (judgementFinding d e outcome (suggestSwatches (some f) (some b)))
      else none
  := by
  cases outcome with
  | none => cases houtcome
  | some m =>
    rw [contrastFinding?, hclasses]
    cases hvalid : m.valid with
    | true => simp [Value.literal?, hcolours, houtcome, hvalid, Check.valid?]
    | false =>
      simp [Value.literal?, hcolours, houtcome, hvalid, Check.valid?, judgementFinding,
        Check.message]

/-- The rule says of an element what any comparison of its colours says. -/
theorem contrastFinding?_of_compares {c : Comparison} (h : Compares e c) :
  contrastFinding? d e
    = if Check.valid? c.check = some false then
        some (judgementFinding d e c.check c.suggestions)
      else none
  := by
  obtain ⟨hclasses, hcolours, htext, hback⟩ := h
  obtain ⟨hf, hb⟩ := ClassList.mem_swatches_of_colours hcolours
  rw [contrastFinding?_of_colours hclasses hcolours
    (Comparison.check_of_spells hf hb htext hback).symm]
  split
  · rename_i hfails
    rw [Comparison.suggestions_of_spells hf hb htext hback hfails]
  · rfl

/-- An element on which something is found has a comparison. -/
theorem exists_compares {finding : Finding} (h : contrastFinding? d e = some finding) :
  ∃ c, Compares e c
  := by
  obtain ⟨classes, hclasses, h⟩ := Option.bind_eq_some_iff.mp h
  obtain ⟨m, hm, -⟩ := Option.bind_eq_some_iff.mp h
  obtain ⟨value, hvalue, hliteral⟩ := Option.bind_eq_some_iff.mp hclasses
  obtain rfl : value = .string classes := by
    cases value with
    | string text => simpa [Value.literal?] using hliteral
    | boolean _ | number _ | expression | none => cases hliteral
  -- Only a pair of known colours is measured.
  cases hcolours : ClassList.colours classes with
  | mk foreground background =>
    rw [hcolours] at hm
    cases foreground with
    | none => cases hm
    | some f =>
      cases background with
      | none => cases hm
      | some b => exact ⟨_, .colours hvalue hcolours .token .token⟩

/-- What the rule finds on an element is what its comparisons say. -/
theorem judges_iff {outcome : Option Finding} :
  Judges d e outcome ↔ contrastFinding? d e = outcome
  := by
  constructor
  · rintro (⟨⟨c, hc⟩, hfails⟩ | hpasses)
    · obtain ⟨hvalid, hfinding⟩ := hfails c hc
      rw [contrastFinding?_of_compares hc, if_pos hvalid, hfinding]
    · by_contra h
      obtain ⟨finding, hfinding⟩ := Option.ne_none_iff_exists'.mp h
      obtain ⟨c, hc⟩ := exists_compares hfinding
      apply h
      rw [contrastFinding?_of_compares hc, if_neg (hpasses c hc)]
  · rintro rfl
    cases hfinding : contrastFinding? d e with
    | none =>
      apply Judges.passed
      intro c hc hvalid
      rw [contrastFinding?_of_compares hc, if_pos hvalid] at hfinding
      cases hfinding
    | some finding =>
      apply Judges.flagged (exists_compares hfinding)
      intro c hc
      rw [contrastFinding?_of_compares hc] at hfinding
      simpa using hfinding

/-- The findings of the rule are, element by element, what the comparisons of the element say. -/
theorem findings_eq_iff_judges (d : Document) (page : Page) (findings : List Finding) :
  colorContrast.findings d page = findings
    ↔ ∃ outcomes, List.Forall₂ (Judges d) page.elements outcomes
        ∧ outcomes.reduceOption = findings
  := by
  have hmap (outcomes : List (Option Finding)) :
      List.Forall₂ (Judges d) page.elements outcomes
        ↔ page.elements.map (contrastFinding? d) = outcomes := by
    have hjudges : Judges d = fun e outcome => contrastFinding? d e = outcome := by
      ext e outcome
      apply judges_iff
    rw [hjudges, ← List.forall₂_eq_eq_eq, List.forall₂_map_left_iff]
  have hrule : colorContrast.findings d page
      = (page.elements.map (contrastFinding? d)).reduceOption := by
    rw [List.reduceOption, List.filterMap_map]
    rfl
  simp only [hmap, exists_eq_left', hrule]

end Rule

end AccessAudit
