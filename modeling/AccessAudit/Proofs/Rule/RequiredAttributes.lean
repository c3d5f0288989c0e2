import AccessAudit.Proofs.Rule.OpeningTag

/-!
# Required attributes

Which attributes keep a tag from being flagged.  A tag with such an attribute is not flagged,
wherever the attribute stands, as long as no value before it holds a `>` and no value holds the
opening of a watched tag.  A `>` in a value counts as the end of the tag: if nothing before it
excuses the tag, the tag is flagged, whatever attributes follow.
-/

namespace AccessAudit.Rule

/-- Tags that a rule watches, and the attributes of which one is asked for. -/
structure Requirement where
  rule : LineRule
  tags : List String
  attributes : List String

/-- The attributes that are asked for. -/
def requirements : List Requirement :=
  [⟨semanticHtml, ["div", "span"], ["role"]⟩,
   ⟨keyboardNavigation, ["div"], ["onKeyDown"]⟩,
   ⟨formLabels, ["input", "select", "textarea"], ["id", "aria-label"]⟩,
   ⟨altText, ["img"], ["alt"]⟩]

/-- A check looks at a tag: at every tag of the name, or at one with a text before the next `>`. -/
def LineCheck.Sees (check : LineCheck) (t : OpeningTag) : Prop :=
  check.pattern = tagStart t.tag
    ∨ ∃ text, check.pattern = tagWith t.tag text ∧ mentions text (tagRest t.body) = true

/-! ### The catalogue -/

variable {q : Requirement} {check : LineCheck}

/-- Every check with an excuse looks for one of the watched tags. -/
theorem exists_tagStart_append (hq : q ∈ requirements) (hcheck : check ∈ q.rule.checks)
    (hexcuses : check.excuses ≠ []) :
  ∃ tag ∈ q.tags, ∃ p, check.pattern = tagStart tag ++ p
  := by
  have table : ∀ q ∈ requirements, ∀ check ∈ q.rule.checks, check.excuses ≠ [] →
      ∃ tag ∈ q.tags, (Text.rest? (tagStart tag) check.pattern).isSome = true := by
    decide +kernel
  obtain ⟨tag, htag, h⟩ := table q hq check hcheck hexcuses
  obtain ⟨p, hp⟩ := Text.isSome_rest?_iff.mp h
  exact ⟨tag, htag, p, hp.symm⟩

/-- Every attribute that is asked for is an excuse, with the `=` after it. -/
theorem exists_excuse (hq : q ∈ requirements) (hcheck : check ∈ q.rule.checks)
    (hexcuses : check.excuses ≠ []) {key : String} (hkey : key ∈ q.attributes) :
  ∃ excuse ∈ check.excuses, excuse.toList <:+: key.toList ++ ['=']
  := by
  have table : ∀ q ∈ requirements, ∀ check ∈ q.rule.checks, check.excuses ≠ [] →
      ∀ key ∈ q.attributes, ∃ excuse ∈ check.excuses,
        Text.occurs excuse.toList (key.toList ++ ['=']) = true := by
    decide +kernel
  obtain ⟨excuse, hexcuse, h⟩ := table q hq check hcheck hexcuses key hkey
  exact ⟨excuse, hexcuse, Text.occurs_iff.mp h⟩

theorem isWord_getLast? (hq : q ∈ requirements) {tag : String} (htag : tag ∈ q.tags) :
  tag.toList.getLast?.any Text.isWord = true
  := by
  have table : ∀ q ∈ requirements, ∀ tag ∈ q.tags,
      tag.toList.getLast?.any Text.isWord = true := by
    decide +kernel
  apply table q hq tag htag

/-! ### Flagged tags -/

variable {t : OpeningTag}

/-- A pattern for tags matches in a line only at its tag, if no value holds the opening of another
one. -/
theorem eq_text_of_matchAt {tag : String} {p : Pattern} {before : Option Char} {u v : List Char}
    (hline : t.line = u ++ v) (hopen : (tagStart tag).find t.body = [])
    (hmatch : (Pattern.matchAt (tagStart tag ++ p) ⟨before, v⟩).isSome = true) :
  v = t.text
  := by
  obtain ⟨head, rest, rfl, -⟩ := Pattern.matchAt_tagStart_append.mp hmatch
  rcases t.text_or_body_of_line hline with h | ⟨w, h⟩
  · exact h.symm
  · have hnone := Pattern.matchAt_eq_none_of_findFrom_eq_nil (h ▸ hopen) (List.cons_ne_nil _ _)
    have hsome := Pattern.matchAt_tagStart_of_append (w.getLast?.or none) hmatch
    rw [hnone] at hsome
    cases hsome

/-- A tag is excused by an attribute that no `>` stands before. -/
theorem excused_text {before after : List (Blanks × TagAttribute)} {gap : Blanks}
    {a : TagAttribute} (hattributes : t.attributes = before ++ (gap, a) :: after)
    (hbefore : ∀ item ∈ before, '>' ∉ item.2.inner) {key : String} (hsets : a.sets key = true)
    {excuse : String} (hexcuse : excuse ∈ check.excuses)
    (hkey : excuse.toList <:+: key.toList ++ ['=']) :
  check.excused t.text = true
  := by
  cases a with
  | bare name => cases hsets
  | spread text => cases hsets
  | set name left right value =>
    simp only [TagAttribute.sets, Bool.and_eq_true, beq_iff_eq, List.isEmpty_iff] at hsets
    obtain ⟨hname, hleft⟩ := hsets
    -- Everything up to the `=` of the attribute stands before the first `>`.
    let start := '<' :: t.name.chars ++ TagAttribute.renderAll before ++ gap.chars
    have htext : t.text = start ++ (key.toList ++ ['=']) ++ (right.chars ++ value.render
        ++ TagAttribute.renderAll after ++ t.ending) := by
      simp [start, OpeningTag.text, OpeningTag.body, hattributes, TagAttribute.renderAll,
        TagAttribute.render, hname, hleft]
    have hstart : '>' ∉ start ++ (key.toList ++ ['=']) := by
      have hend : endsName '>' = true := by decide
      have hgap : '>' ∉ gap.chars := gap.not_mem (by decide)
      simp [start, ← hname, t.name.not_mem hend, name.not_mem hend, hgap,
        TagAttribute.not_mem_renderAll hbefore]
    apply List.any_eq_true.mpr ⟨excuse, hexcuse, ?_⟩
    apply mentions_of_toList_infix hkey
    rw [htext, tagRest_append hstart, List.append_assoc]
    apply List.infix_append'

/-- The pattern of a check matches at the tags that the check sees. -/
theorem matchAt_text_of_sees (hword : t.tag.toList.getLast?.any Text.isWord = true)
    (hsees : check.Sees t) (before : Option Char) :
  (check.pattern.matchAt ⟨before, t.text⟩).isSome = true
  := by
  have hname : t.name.chars.map Text.fold = t.tag.toList.map Text.fold := by
    rw [OpeningTag.tag, String.toList_ofList]
  have hboundary : Text.atBoundary (t.name.chars.getLast?.or (some '<')) t.body = true := by
    rw [OpeningTag.tag, String.toList_ofList] at hword
    cases hlast : t.name.chars.getLast? with
    | none =>
      rw [hlast] at hword
      cases hword
    | some c =>
      rw [hlast] at hword
      rw [Text.atBoundary, t.head?_body, Option.some_or, hword]
      rfl
  rcases hsees with h | ⟨text, h, htext⟩
  · rw [h, ← List.append_nil (tagStart t.tag)]
    exact Pattern.matchAt_tagStart_append.mpr ⟨t.name.chars, t.body, rfl, hname, hboundary, rfl⟩
  · rw [h]
    apply Pattern.matchAt_tagWith_of_mentions hname hboundary htext

/-- A tag that a check sees is flagged where it begins, if nothing excuses it. -/
theorem firstMatch?_of_sees (hword : t.tag.toList.getLast?.any Text.isWord = true)
    (hsees : check.Sees t) (hexcused : check.excused t.text = false) :
  check.firstMatch? t.line = some (Text.byteLength t.indent.chars)
  := by
  obtain ⟨p, hp⟩ : ∃ p, check.pattern = tagStart t.tag ++ p := by
    rcases hsees with h | ⟨text, h, -⟩
    · exact ⟨[], by rw [h, List.append_nil]⟩
    · exact ⟨withinTag ++ Pattern.text text, by rw [h, tagWith, List.append_assoc]⟩
  -- No match begins in the blanks before the tag.
  have hnone : ∀ u v, t.indent.chars = u ++ v → v ≠ [] →
      check.pattern.matchAt ⟨u.getLast?, v ++ t.text⟩ = none := by
    intro u v hindent hv
    rw [← Option.not_isSome_iff_eq_none, hp]
    intro h
    obtain ⟨head, rest, hrest, -⟩ := Pattern.matchAt_tagStart_append.mp h
    obtain ⟨c, v, rfl⟩ := List.exists_cons_of_ne_nil hv
    obtain ⟨rfl, -⟩ := List.cons.inj hrest
    have hmem : '<' ∈ t.indent.chars := by
      rw [hindent]
      simp
    exact t.indent.not_mem (by decide) hmem
  obtain ⟨later, hfind⟩ := Pattern.find_append_of_matchAt hnone (List.cons_ne_nil _ _)
    (matchAt_text_of_sees hword hsees _)
  rw [LineCheck.firstMatch?, OpeningTag.line, hfind, List.find?_cons_of_pos, Option.map_some]
  simp [hexcused]

/-- What a check with an excuse finds on a tag with an attribute that is asked for: nothing, if no
`>` stands in a value before the attribute and no value holds the opening of a watched tag; but the
tag itself, if the check sees it and nothing before the first `>` excuses it. -/
theorem finding?_line_of_sets (hq : q ∈ requirements) (htag : t.tag ∈ q.tags)
    {before after : List (Blanks × TagAttribute)} {gap : Blanks} {a : TagAttribute}
    (hattributes : t.attributes = before ++ (gap, a) :: after) {key : String}
    (hkey : key ∈ q.attributes) (hsets : a.sets key = true) (hcheck : check ∈ q.rule.checks)
    (hexcuses : check.excuses ≠ []) (d : Document) (number : Nat) :
  ((∀ item ∈ before, '>' ∉ item.2.inner) →
      (∀ tag ∈ q.tags, (tagStart tag).find t.body = []) →
      check.finding? q.rule.id d number t.line = none)
    ∧ (check.Sees t →
      (∀ excuse ∈ check.excuses, mentions excuse (tagRest t.text) = false) →
      ∃ f, check.finding? q.rule.id d number t.line = some f
        ∧ f.location = d.location number (Text.byteLength t.indent.chars + 1))
  := by
  constructor
  · intro hbefore hopen
    obtain ⟨tag, htag, p, hp⟩ := exists_tagStart_append hq hcheck hexcuses
    obtain ⟨excuse, hexcuse, hoccurs⟩ := exists_excuse hq hcheck hexcuses hkey
    apply Option.map_eq_none_iff.mpr
    apply Pattern.firstMatch?_eq_none_of_excused
    intro u v hline hmatch
    rw [hp] at hmatch
    rw [eq_text_of_matchAt hline (hopen tag htag) hmatch]
    apply excused_text hattributes hbefore hsets hexcuse hoccurs
  · intro hsees hexcuse
    have hexcused : check.excused t.text = false := by
      apply List.any_eq_false.mpr
      intro excuse hmem
      rw [hexcuse excuse hmem]
      decide
    rw [LineCheck.finding?, firstMatch?_of_sees (isWord_getLast? hq htag) hsees hexcused]
    exact ⟨_, rfl, rfl⟩

/-! ### Tags with attributes -/

/-- No blanks. -/
def noBlanks : Blanks :=
  ⟨[], by decide⟩

/-- One space. -/
def space : Blanks :=
  ⟨[' '], by decide⟩

/-- A control with a label, after a value with a `<` and before one with a `>`. -/
def labelledInput : OpeningTag where
  indent := space
  name := ⟨"input".toList, by decide, by decide⟩
  attributes :=
    [(space, .set ⟨"max".toList, by decide, by decide⟩ space space
        (.braced "n < 3 ? a : b".toList)),
     (space, .bare ⟨"disabled".toList, by decide, by decide⟩),
     (space, .set ⟨"aria-label".toList, by decide, by decide⟩ noBlanks noBlanks
        (.quoted '\'' "Name".toList (by decide) (by decide))),
     (noBlanks, .set ⟨"onChange".toList, by decide, by decide⟩ noBlanks noBlanks
        (.braced "e => set(e)".toList))]
  gap := space
  selfClosing := true
  trail := noBlanks
  apart := by decide

/-- A button whose role stands after a value with a `>`. -/
def arrowButton : OpeningTag where
  indent := noBlanks
  name := ⟨"div".toList, by decide, by decide⟩
  attributes :=
    [(space, .set ⟨"onClick".toList, by decide, by decide⟩ noBlanks noBlanks
        (.braced "() => open()".toList)),
     (space, .set ⟨"role".toList, by decide, by decide⟩ noBlanks noBlanks
        (.quoted '"' "button".toList (by decide) (by decide)))]
  gap := noBlanks
  selfClosing := false
  trail := noBlanks
  apart := by decide

/-- A button with a label, for which no attribute is asked. -/
def closeButton : OpeningTag where
  indent := noBlanks
  name := ⟨"button".toList, by decide, by decide⟩
  attributes :=
    [(space, .set ⟨"aria-label".toList, by decide, by decide⟩ noBlanks noBlanks
        (.quoted '"' "Close".toList (by decide) (by decide)))]
  gap := noBlanks
  selfClosing := false
  trail := noBlanks
  apart := by decide

/-- Nothing is found on the labelled control, and the button is flagged although it has a role. -/
theorem finding?_line_of_sets_two_tags :
  (labelledInput.line = (" <input max = \x7bn < 3 ? a : b\x7d disabled aria-label='Name'"
        ++ "onChange=\x7be => set(e)\x7d />").toList
      ∧ formLabels.findings ⟨"App.tsx", [labelledInput.line]⟩ = [])
    ∧ (arrowButton.line = "<div onClick=\x7b() => open()\x7d role=\"button\">".toList
      ∧ ∃ check ∈ semanticHtml.checks, ∃ f,
        check.finding? semanticHtml.id ⟨"App.tsx", [arrowButton.line]⟩ 1 arrowButton.line = some f
          ∧ f.location = ⟨"App.tsx", 1, 1⟩)
  := by
  refine ⟨⟨by decide +kernel, ?_⟩, by decide +kernel, _, List.mem_cons_self, ?_⟩
  · have hq : requirements[2] ∈ requirements := by simp
    have hattributes : labelledInput.attributes
        = labelledInput.attributes.take 2 ++ labelledInput.attributes[2] :: _ := rfl
    have hkey : "aria-label" ∈ requirements[2].attributes := by decide
    have hexcuses : ∀ check ∈ formLabels.checks, check.excuses ≠ [] := by decide
    have hnone : ∀ check ∈ formLabels.checks, check.finding? formLabels.id
        ⟨"App.tsx", [labelledInput.line]⟩ 1 labelledInput.line = none := by
      intro check hcheck
      apply (finding?_line_of_sets hq (by decide) hattributes hkey (by decide) hcheck
        (hexcuses check hcheck) _ 1).1
      · decide +kernel
      · decide +kernel
    have hline : Text.dropReturn labelledInput.line = labelledInput.line := by decide +kernel
    simpa [LineRule.findings, Document.numberedLines, hline] using hnone
  · have hq : requirements[0] ∈ requirements := by simp
    have hattributes : arrowButton.attributes
        = arrowButton.attributes.take 1 ++ arrowButton.attributes[1] :: _ := rfl
    have hkey : "role" ∈ requirements[0].attributes := by decide
    apply (finding?_line_of_sets hq (by decide) hattributes hkey (by decide) List.mem_cons_self
      (by decide) _ 1).2
    · exact .inr ⟨"onClick", rfl, by decide +kernel⟩
    · decide +kernel

/-- The button with an arrow function before its role is flagged, though the role excuses it. -/
theorem findings_arrowButton :
  (arrowButton.attributes.any fun item => item.2.sets "role") = true
    ∧ (semanticHtml.findings ⟨"App.tsx", [arrowButton.line]⟩).map (·.location)
      = [⟨"App.tsx", 1, 1⟩]
  := by
  decide +kernel

end AccessAudit.Rule
