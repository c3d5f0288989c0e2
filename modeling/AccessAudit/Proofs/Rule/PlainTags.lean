import AccessAudit.Proofs.Markup.Resolution
import AccessAudit.Proofs.Rule.Excuses
import AccessAudit.Proofs.Text.Lines
import AccessAudit.Rule.Structural

/-!
# Plain tags

A form control or an image can be judged in two ways: by a search in the line on which its tag is
written, or by the attributes of its element.  On a line with one self-closing tag whose attributes
are all written `name="value"` the two ways agree.  What the search flags, the structural rule on the
element flags too; the other way round this holds unless a value or the name of some other attribute
looks like the attribute that is asked for.
-/

namespace AccessAudit.Rule

open Markup

/-! ### Tags and their elements -/

/-- An attribute that is written `name="value"`. -/
structure PlainAttribute where
  name : String
  value : String
  begins : name.toList.head?.any Char.isAlpha = true
  letters : name.toList.all (fun c => c.isAlpha || c == '-') = true
  closed : value.toList.all (fun c => !(['"', '<', '>', '\n'].contains c)) = true

/-- An attribute as it is written in a tag, after a space. -/
def PlainAttribute.render (a : PlainAttribute) : List Char :=
  ' ' :: (a.name.toList ++ ['='] ++ '"' :: (a.value.toList ++ ['"']))

/-- A self-closing tag with plain attributes. -/
structure PlainTag where
  tag : String
  attributes : List PlainAttribute
  ne_nil : tag.toList ≠ []
  letters : tag.toList.all Char.isAlpha = true

namespace PlainTag

/-- What stands between the name of the tag and the `>`. -/
def body (t : PlainTag) : List Char :=
  t.attributes.flatMap PlainAttribute.render ++ [' ', '/']

/-- What stands before the `>`. -/
def inside (t : PlainTag) : List Char :=
  '<' :: (t.tag.toList ++ t.body)

/-- The line `<tag name="value" … />`. -/
def line (t : PlainTag) : List Char :=
  t.inside ++ ['>']

/-- The document that has this line only. -/
def document (t : PlainTag) (root path : String) : Document :=
  Document.of root path (String.ofList t.line)

/-- The element of the tag; of several attributes with one name it has the last one. -/
def element (t : PlainTag) : Element where
  tag := t.tag
  line := 1
  attributes := t.attributes.foldl (fun m a => m.insert a.name (.string a.value)) []
  hasChildren := false
  selfClosing := true

/-- The page that has this element only. -/
def page (t : PlainTag) : Page :=
  ⟨[t.element], []⟩

end PlainTag

/-! ### Characters of a tag -/

theorem PlainAttribute.not_mem_name (a : PlainAttribute) {c : Char}
    (hc : (c.isAlpha || c == '-') = false) :
  c ∉ a.name.toList
  := by
  intro hmem
  rw [List.all_eq_true.mp a.letters c hmem] at hc
  cases hc

/-- A character that is excluded from values is not in a value. -/
theorem PlainAttribute.not_mem_value (a : PlainAttribute) {c : Char}
    (hc : c ∈ ['"', '<', '>', '\n']) :
  c ∉ a.value.toList
  := by
  intro hmem
  have hclosed := List.all_eq_true.mp a.closed c hmem
  rw [List.contains_iff_mem.mpr hc] at hclosed
  cases hclosed

/-- Angle brackets and line feeds are not in what is written of an attribute. -/
theorem PlainAttribute.not_mem_render (a : PlainAttribute) {c : Char} (hc : c ∈ ['<', '>', '\n']) :
  c ∉ a.render
  := by
  have hvalue := a.not_mem_value (List.mem_cons_of_mem '"' hc)
  have hletters : ∀ c ∈ ['<', '>', '\n'], (c.isAlpha || c == '-') = false := by simp
  have hname := a.not_mem_name (hletters c hc)
  have hothers : ∀ c ∈ ['<', '>', '\n'], c ∉ [' ', '=', '"'] := by simp
  have := hothers c hc
  simp_all [render]

namespace PlainTag

variable (t : PlainTag)

/-- Angle brackets and line feeds are not in the name of a tag. -/
theorem not_mem_tag {c : Char} (hc : c ∈ ['<', '>', '\n']) :
  c ∉ t.tag.toList
  := by
  intro hmem
  have hletters : ∀ c ∈ ['<', '>', '\n'], c.isAlpha = false := by simp
  have halpha := List.all_eq_true.mp t.letters c hmem
  rw [hletters c hc] at halpha
  cases halpha

/-- Angle brackets and line feeds do not stand between the name of a tag and its end. -/
theorem not_mem_body {c : Char} (hc : c ∈ ['<', '>', '\n']) :
  c ∉ t.body
  := by
  intro hmem
  rcases List.mem_append.mp hmem with hmem | hmem
  · obtain ⟨a, -, ha⟩ := List.mem_flatMap.mp hmem
    apply a.not_mem_render hc ha
  · have hothers : ∀ c ∈ ['<', '>', '\n'], c ∉ [' ', '/'] := by simp
    apply hothers c hc hmem

/-- A `<` stands only at the beginning of the line. -/
theorem eq_nil_of_line_eq {u v : List Char} (h : t.line = u ++ '<' :: v) :
  u = []
  := by
  rw [line, inside, List.cons_append] at h
  cases u with
  | nil => rfl
  | cons c u =>
    obtain ⟨-, h⟩ := List.cons.inj h
    have hmem : '<' ∈ t.tag.toList ++ t.body ++ ['>'] := by
      rw [h]
      apply List.mem_append_right u List.mem_cons_self
    have htag := t.not_mem_tag (c := '<') (by decide)
    have hbody := t.not_mem_body (c := '<') (by decide)
    simp [htag, hbody] at hmem

/-- The text before the next `>` is all of the tag. -/
theorem tagRest_line :
  tagRest t.line = t.inside
  := by
  have htag := t.not_mem_tag (c := '>') (by decide)
  have hbody := t.not_mem_body (c := '>') (by decide)
  have hinside : '>' ∉ t.inside := by simp [inside, htag, hbody]
  rw [line, tagRest_append hinside]
  apply List.append_nil

/-- The line has no line feed, and does not end with a carriage return. -/
theorem numberedLines_document (root path : String) :
  (t.document root path).numberedLines = [(1, t.line)]
  := by
  have htag := t.not_mem_tag (c := '\n') (by decide)
  have hbody := t.not_mem_body (c := '\n') (by decide)
  have hline : '\n' ∉ t.line := by simp [line, inside, htag, hbody]
  have hreturn : Text.dropReturn t.line = t.line := by
    rw [Text.dropReturn, line, List.getLast?_concat, if_neg (by decide)]
  rw [document, Document.of, String.toList_ofList, Text.lines_eq_splitOn,
    List.splitOn_eq_singleton hline]
  simp [Document.numberedLines, hreturn]

/-- The tag opens at the beginning of the line. -/
theorem opens_line :
  Opens t.tag t.line
  := by
  refine ⟨t.tag.toList, t.body ++ ['>'], ?_, rfl, ?_⟩
  · simp [line, inside]
  -- The last letter of the name is a word character, and the space after it is none.
  have hlast : ('<' :: t.tag.toList).getLast?.any Text.isWord = true := by
    rw [List.getLast?_cons, List.getLast?_eq_some_getLast t.ne_nil]
    apply Text.isWord_of_isAlpha
    apply List.all_eq_true.mp t.letters _ (List.getLast_mem t.ne_nil)
  have hspace : t.body.head? = some ' ' := by
    rw [body]
    cases t.attributes with
    | nil => rfl
    | cons a rest => rfl
  have hnone : Text.isWord ' ' = false := by decide +kernel
  rw [Text.atBoundary, hlast, List.head?_append, hspace, Option.some_or, Option.any_some, hnone]
  rfl

end PlainTag

/-! ### Texts in a tag -/

/-- Whether a text stands in a line is decided by a search. -/
instance (text : String) (s : List Char) : Decidable (Holds text s) :=
  decidable_of_iff (mentions text s = true) mentions_iff

/-- A text without some character before the small letters stands on one side of the character. -/
theorem holds_append_cons_iff {text : String} {c : Char} {s r : List Char}
    (hfold : Text.fold c = c) (hc : c < 'a') (htext : c ∉ text.toList) :
  Holds text (s ++ c :: r) ↔ Holds text s ∨ Holds text r
  := by
  constructor
  · rintro ⟨part, hinfix, hpart⟩
    have hmem : c ∉ part := not_mem_of_map_fold_eq hpart hfold hc htext
    rcases (Text.infix_append_cons_iff hmem).mp hinfix with hinfix | hinfix
    · exact .inl ⟨part, hinfix, hpart⟩
    · exact .inr ⟨part, hinfix, hpart⟩
  · rintro (h | h)
    · apply h.mono (List.prefix_append s _).isInfix
    · apply h.mono ((List.suffix_cons c r).trans (List.suffix_append s _)).isInfix

/-- What stands in an attribute: in its name with the `=` after it, or in its value. -/
def PlainAttribute.Mentions (text : String) (a : PlainAttribute) : Prop :=
  Holds text (a.name.toList ++ ['=']) ∨ Holds text a.value.toList

/-- A text without spaces and quotes stands in a text with attributes after it exactly if it stands
before them, in one of them, or behind them. -/
theorem holds_append_attributes_iff {text : String} (hspace : ' ' ∉ text.toList)
    (hquote : '"' ∉ text.toList) (s : List Char) (attributes : List PlainAttribute) :
  Holds text (s ++ (attributes.flatMap PlainAttribute.render ++ [' ', '/']))
    ↔ Holds text s ∨ (∃ a ∈ attributes, a.Mentions text) ∨ Holds text ['/']
  := by
  induction attributes generalizing s with
  | nil => simp [holds_append_cons_iff rfl (by decide) hspace]
  | cons a attributes ih =>
    have hrender : s ++ ((a :: attributes).flatMap PlainAttribute.render ++ [' ', '/'])
        = s ++ ' ' :: ((a.name.toList ++ ['='])
            ++ '"' :: (a.value.toList
              ++ '"' :: ([] ++ (attributes.flatMap PlainAttribute.render ++ [' ', '/'])))) := by
      simp [PlainAttribute.render]
    have hmentions : (∃ b ∈ a :: attributes, b.Mentions text)
        ↔ a.Mentions text ∨ ∃ b ∈ attributes, b.Mentions text := List.exists_mem_cons_iff ..
    -- Nothing stands between two attributes but their quotes and spaces.
    have hnil : Holds text [] → Holds text s := fun h => h.mono List.nil_infix
    rw [hrender, holds_append_cons_iff rfl (by decide) hspace,
      holds_append_cons_iff (c := '"') rfl (by decide) hquote,
      holds_append_cons_iff (c := '"') rfl (by decide) hquote, ih []]
    rw [hmentions, PlainAttribute.Mentions]
    generalize (∃ b ∈ attributes, b.Mentions text) = later
    grind only

/-! ### What the checks of lines flag -/

section

variable {w : Watch} {check : LineCheck} {t : PlainTag}

/-- A check for a tag has a match in the line exactly if none of its excuses stands in the tag. -/
theorem firstMatch?_line_ne_none_iff (hpattern : check.pattern = tagStart t.tag) :
  check.firstMatch? t.line ≠ none ↔ ∀ excuse ∈ check.excuses, ¬Holds excuse t.inside
  := by
  have hflags : ∀ n, check.Flags t.line n ↔ Unexcused t.tag check.excuses t.line n := fun n =>
    LineCheck.flags_tagStart_iff hpattern (t.not_mem_tag (by decide))
  rw [ne_eq, LineCheck.firstMatch?_eq_none_iff, not_forall]
  simp only [hflags, not_not]
  rw [← t.tagRest_line]
  constructor
  · rintro ⟨n, before, after, hline, -, ⟨head, rest, rfl, -⟩, hexcuses⟩
    obtain rfl := t.eq_nil_of_line_eq hline
    rw [hline]
    apply hexcuses
  · intro hexcuses
    exact ⟨0, [], t.line, rfl, rfl, t.opens_line, hexcuses⟩

/-- A check for labels makes a finding on the line exactly if it has a match there. -/
theorem foundBy_document_ne_nil_iff (hw : w ∈ labelChecks)
    (hcheck : w.rule.checks[w.index]? = some check) (root path : String) :
  w.rule.foundBy check (t.document root path) 1 ≠ [] ↔ check.firstMatch? t.line ≠ none
  := by
  have hline : (1, t.line) ∈ (t.document root path).numberedLines := by
    rw [t.numberedLines_document]
    apply List.mem_singleton_self
  rw [LineRule.foundBy_eq (List.mem_of_getElem? hcheck)
    (nodup_messages (List.mem_append_right _ hw)) hline]
  cases h : check.firstMatch? t.line with
  | none => simp [LineCheck.finding?, h]
  | some n => simp [LineCheck.finding?, h]

end

/-! ### What the structural rules flag -/

/-- The structural rule on the elements of a tag that needs a label or a text. -/
def structuralFor (tag : String) : StructuralRule :=
  if tag = "img" then imageAlt else formControlLabel

/-- The attributes of which an element of such a tag needs one. -/
def neededNames (tag : String) : List String :=
  if tag = "img" then ["alt"] else ["id", "aria-label", "aria-labelledby"]

/-- The attributes that were added are there. -/
theorem has_foldl_insert (attributes : List PlainAttribute) (m : Attributes) (key : String) :
  (attributes.foldl (fun m a => m.insert a.name (.string a.value)) m).has key = true
    ↔ m.has key = true ∨ ∃ a ∈ attributes, a.name = key
  := by
  induction attributes generalizing m with
  | nil => simp
  | cons a attributes ih =>
    rw [List.foldl_cons, ih, List.exists_mem_cons_iff, Attributes.has, Attributes.get?_insert,
      Attributes.has]
    by_cases hkey : key = a.name
    · simp [hkey]
    · simp [hkey, Ne.symm hkey]

theorem PlainTag.has_element_iff (t : PlainTag) (key : String) :
  t.element.has key = true ↔ ∃ a ∈ t.attributes, a.name = key
  := by
  rw [Element.has, PlainTag.element, has_foldl_insert]
  simp [Attributes.has, Attributes.get?]

/-- The structural rule on form controls flags the element of a form control exactly if it has none of
three attributes. -/
theorem formControlLabel_findings_page_ne_nil_iff {t : PlainTag}
    (htag : t.element.hasAnyTag ["input", "select", "textarea"] = true) (d : Document) :
  formControlLabel.findings d t.page ≠ []
    ↔ ∀ name ∈ ["id", "aria-label", "aria-labelledby"], t.element.has name = false
  := by
  simp [formControlLabel, PlainTag.page, Element.lacksLabel, htag, Element.hasAccessibleName]

theorem imageAlt_findings_page_ne_nil_iff {t : PlainTag} (htag : t.element.hasTag "img" = true)
    (d : Document) :
  imageAlt.findings d t.page ≠ [] ↔ ∀ name ∈ ["alt"], t.element.has name = false
  := by
  simp [imageAlt, PlainTag.page, Element.lacksAlt, htag]

/-- The structural rule for a tag flags the element exactly if none of the needed attributes is
there. -/
theorem structuralFor_findings_page_ne_nil_iff {w : Watch} (hw : w ∈ labelChecks) {t : PlainTag}
    (htag : t.tag = w.tag) (d : Document) :
  (structuralFor w.tag).findings d t.page ≠ []
    ↔ ∀ name ∈ neededNames w.tag, ∀ a ∈ t.attributes, a.name ≠ name
  := by
  have hnone : ∀ name, (∀ a ∈ t.attributes, a.name ≠ name) ↔ t.element.has name = false := by
    intro name
    simp [Bool.eq_false_iff, t.has_element_iff]
  simp only [hnone]
  have hsame : t.element.hasTag = Text.sameLetters w.tag := by
    funext tag
    rw [Element.hasTag, ← htag]
    rfl
  simp only [labelChecks, List.mem_cons, List.not_mem_nil, or_false] at hw
  obtain rfl | rfl | rfl | rfl := hw
  · apply formControlLabel_findings_page_ne_nil_iff
    rw [Element.hasAnyTag, hsame]
    decide +kernel
  · apply formControlLabel_findings_page_ne_nil_iff
    rw [Element.hasAnyTag, hsame]
    decide +kernel
  · apply formControlLabel_findings_page_ne_nil_iff
    rw [Element.hasAnyTag, hsame]
    decide +kernel
  · apply imageAlt_findings_page_ne_nil_iff
    rw [hsame]
    decide +kernel

/-! ### Attributes that look like others -/

/-- A line ends with a text, in letters of either case. -/
def EndsWith (text : String) (s : List Char) : Prop :=
  ∃ part, part <:+ s ∧ part.map Text.fold = text.toList.map Text.fold

/-- Whether a line ends with a text is decided on the small letters of both. -/
instance (text : String) (s : List Char) : Decidable (EndsWith text s) :=
  decidable_of_iff (text.toList.map Text.fold <:+ s.map Text.fold) <| by
    rw [List.suffix_map_iff]
    simp only [EndsWith, eq_comm]

/-- The names of the attributes that are asked for. -/
def labelNames : List String :=
  ["id", "aria-label", "aria-labelledby", "alt"]

/-- The texts by which a search recognises these attributes. -/
def labelMarks : List String :=
  ["id=", "aria-label", "alt="]

/-- An attribute that does not look like one of those that are asked for, unless it is one of
them. -/
structure PlainAttribute.Unambiguous (a : PlainAttribute) : Prop where
  value : ∀ mark ∈ labelMarks, ¬Holds mark a.value.toList
  name : a.name ∈ labelNames ∨ ¬EndsWith "id" a.name.toList ∧ ¬EndsWith "alt" a.name.toList
    ∧ ¬Holds "aria-label" a.name.toList

/-- Where a text stands, every part of it stands. -/
theorem Holds.of_toList_infix {text part : String} {s : List Char} (h : Holds text s)
    (hpart : part.toList <:+: text.toList) :
  Holds part s
  := by
  obtain ⟨whole, hwhole, hfold⟩ := h
  have hinfix : part.toList.map Text.fold <:+: whole.map Text.fold := by
    rw [hfold]
    apply hpart.map
  obtain ⟨found, hfound, heq⟩ := List.infix_map_iff.mp hinfix
  exact ⟨found, hfound.trans hwhole, heq.symm⟩

/-- A name with an `=` after it holds a key with an `=` after it exactly if it ends with the key. -/
theorem endsWith_of_holds_concat {key text : String} (htext : text.toList = key.toList ++ ['='])
    {s : List Char} (hs : '=' ∉ s) (h : Holds text (s ++ ['='])) :
  EndsWith key s
  := by
  obtain ⟨part, ⟨left, right, heq⟩, hfold⟩ := h
  rw [htext, List.map_append] at hfold
  obtain ⟨found, last, rfl, hfound, hlast⟩ := List.map_eq_append_iff.mp hfold
  obtain ⟨c, rest, rfl, hc, hrest⟩ := List.map_eq_cons_iff.mp hlast
  obtain rfl := List.map_eq_nil_iff.mp hrest
  obtain rfl : c = '=' := Text.eq_of_fold_eq hc (by decide)
  -- The `=` of the text is the one at the end.
  have hends : s ++ ['='] = (left ++ found) ++ '=' :: right := by
    rw [← heq]
    simp
  obtain ⟨between, hbetween⟩ := exists_append_of_not_mem hs hends
  obtain ⟨rfl, rfl⟩ : between = [] ∧ right = [] := by
    cases between with
    | nil => simpa using hbetween
    | cons x between => simp at hbetween
  obtain ⟨rfl, -⟩ := List.append_inj' hends rfl
  exact ⟨found, List.suffix_append left found, hfound⟩

/-- What looks like one of the attributes that are asked for, and is unambiguous, is one of them, and
looks so by its name. -/
theorem PlainAttribute.Unambiguous.name_of_mentions {a : PlainAttribute} (h : a.Unambiguous)
    {mark : String} (hmark : mark ∈ labelMarks) (hmentions : a.Mentions mark) :
  a.name ∈ labelNames
  := by
  have hequals : '=' ∉ a.name.toList := a.not_mem_name (by decide)
  rcases h.name with hname | ⟨hid, halt, haria⟩
  · apply hname
  · exfalso
    have hname : Holds mark (a.name.toList ++ ['=']) :=
      hmentions.resolve_right (h.value mark hmark)
    simp only [labelMarks, List.mem_cons, List.not_mem_nil, or_false] at hmark
    obtain rfl | rfl | rfl := hmark
    · apply hid (endsWith_of_holds_concat (by decide) hequals hname)
    · rcases (holds_append_cons_iff rfl (by decide) (by decide)).mp hname with hname | hname
      · apply haria hname
      · apply haria (hname.mono List.nil_infix)
    · apply halt (endsWith_of_holds_concat (by decide) hequals hname)

/-- Whether an attribute is unambiguous can be decided. -/
instance (a : PlainAttribute) : Decidable a.Unambiguous :=
  decidable_of_iff
    ((∀ mark ∈ labelMarks, ¬Holds mark a.value.toList)
      ∧ (a.name ∈ labelNames ∨ ¬EndsWith "id" a.name.toList ∧ ¬EndsWith "alt" a.name.toList
        ∧ ¬Holds "aria-label" a.name.toList))
    ⟨fun h => ⟨h.1, h.2⟩, fun h => ⟨h.value, h.name⟩⟩

/-! ### The two ways agree -/

section

variable {w : Watch} (hw : w ∈ labelChecks)

include hw

/-- An excuse of a check for labels has no spaces and quotes, and is not in a tag without
attributes. -/
theorem excuse_apart {excuse : String} (hexcuse : excuse ∈ w.excuses) :
  ' ' ∉ excuse.toList ∧ '"' ∉ excuse.toList ∧ ¬Holds excuse ('<' :: w.tag.toList)
    ∧ ¬Holds excuse ['/']
  := by
  have table : ∀ w ∈ labelChecks, ∀ excuse ∈ w.excuses, ' ' ∉ excuse.toList
      ∧ '"' ∉ excuse.toList ∧ ¬Holds excuse ('<' :: w.tag.toList) ∧ ¬Holds excuse ['/'] := by
    decide +kernel
  apply table w hw excuse hexcuse

theorem exists_excuse_of_mem_neededNames {name : String} (hname : name ∈ neededNames w.tag) :
  ∃ excuse ∈ w.excuses, Holds excuse (name.toList ++ ['='])
  := by
  have table : ∀ w ∈ labelChecks, ∀ name ∈ neededNames w.tag,
      ∃ excuse ∈ w.excuses, Holds excuse (name.toList ++ ['=']) := by
    decide +kernel
  apply table w hw name hname

theorem exists_mark_of_mem_excuses {excuse : String} (hexcuse : excuse ∈ w.excuses) :
  ∃ mark ∈ labelMarks, mark.toList <:+: excuse.toList
  := by
  have table : ∀ w ∈ labelChecks, ∀ excuse ∈ w.excuses,
      ∃ mark ∈ labelMarks, mark.toList <:+: excuse.toList := by
    decide +kernel
  apply table w hw excuse hexcuse

/-- An attribute that is asked for and excuses a tag is one that the tag needs. -/
theorem mem_neededNames_of_holds {excuse : String} (hexcuse : excuse ∈ w.excuses) {name : String}
    (hname : name ∈ labelNames) (h : Holds excuse (name.toList ++ ['='])) :
  name ∈ neededNames w.tag
  := by
  have table : ∀ w ∈ labelChecks, ∀ excuse ∈ w.excuses, ∀ name ∈ labelNames,
      Holds excuse (name.toList ++ ['=']) → name ∈ neededNames w.tag := by
    decide +kernel
  apply table w hw excuse hexcuse name hname h

variable {t : PlainTag} (htag : t.tag = w.tag)

include htag

/-- An excuse stands in a tag exactly if one of the attributes mentions it. -/
theorem holds_inside_iff {excuse : String} (hexcuse : excuse ∈ w.excuses) :
  Holds excuse t.inside ↔ ∃ a ∈ t.attributes, a.Mentions excuse
  := by
  obtain ⟨hspace, hquote, hstart, hend⟩ := excuse_apart hw hexcuse
  rw [← htag] at hstart
  have hinside := holds_append_attributes_iff hspace hquote ('<' :: t.tag.toList) t.attributes
  simp only [hstart, hend, false_or, or_false] at hinside
  apply hinside

/-- A tag in which no excuse stands has none of the needed attributes. -/
theorem ne_of_not_holds (h : ∀ excuse ∈ w.excuses, ¬Holds excuse t.inside) {name : String}
    (hname : name ∈ neededNames w.tag) {a : PlainAttribute} (ha : a ∈ t.attributes) :
  a.name ≠ name
  := by
  rintro rfl
  obtain ⟨excuse, hexcuse, hholds⟩ := exists_excuse_of_mem_neededNames hw hname
  apply h excuse hexcuse
  exact (holds_inside_iff hw htag hexcuse).mpr ⟨a, ha, .inl hholds⟩

/-- In a tag of unambiguous attributes without those that are needed no excuse stands. -/
theorem not_holds_of_ne (hclear : ∀ a ∈ t.attributes, a.Unambiguous)
    (h : ∀ name ∈ neededNames w.tag, ∀ a ∈ t.attributes, a.name ≠ name) {excuse : String}
    (hexcuse : excuse ∈ w.excuses) :
  ¬Holds excuse t.inside
  := by
  intro hholds
  obtain ⟨a, ha, hmentions⟩ := (holds_inside_iff hw htag hexcuse).mp hholds
  obtain ⟨mark, hmark, hpart⟩ := exists_mark_of_mem_excuses hw hexcuse
  have hunambiguous := hclear a ha
  have hvalue : ¬Holds excuse a.value.toList := fun hvalue =>
    hunambiguous.value mark hmark (hvalue.of_toList_infix hpart)
  have hname : Holds excuse (a.name.toList ++ ['=']) := hmentions.resolve_right hvalue
  have hlabel : a.name ∈ labelNames :=
    hunambiguous.name_of_mentions hmark (.inl (hname.of_toList_infix hpart))
  apply h a.name (mem_neededNames_of_holds hw hexcuse hlabel hname) a ha rfl

end

/-- Where a check for labels flags a plain tag in its line, the structural rule flags its element; and
the other way round, if no attribute looks like one that is asked for without being one. -/
theorem plainTag_agrees {w : Watch} (hw : w ∈ labelChecks) {t : PlainTag} (htag : t.tag = w.tag)
    (root path : String) :
  ∃ check, w.rule.checks[w.index]? = some check
    ∧ (w.rule.foundBy check (t.document root path) 1 ≠ [] →
      (structuralFor w.tag).findings (t.document root path) t.page ≠ [])
    ∧ ((∀ a ∈ t.attributes, a.Unambiguous) →
      (structuralFor w.tag).findings (t.document root path) t.page ≠ [] →
      w.rule.foundBy check (t.document root path) 1 ≠ [])
  := by
  obtain ⟨check, hcheck, hpattern, hexcuses, -⟩ := exists_check_of_mem_labelChecks hw
  use check, hcheck
  rw [← htag] at hpattern
  rw [foundBy_document_ne_nil_iff hw hcheck, firstMatch?_line_ne_none_iff hpattern, hexcuses,
    structuralFor_findings_page_ne_nil_iff hw htag]
  constructor
  · intro h name hname a ha
    apply ne_of_not_holds hw htag h hname ha
  · intro hclear h excuse hexcuse
    apply not_holds_of_ne hw htag hclear h hexcuse

/-- A control whose attributes have an empty value, a value with a carriage return, and one name
twice. -/
def unlabelledSelect : PlainTag where
  tag := "select"
  attributes :=
    [⟨"name", "text", by decide, by decide, by decide⟩,
     ⟨"value", "", by decide, by decide, by decide⟩,
     ⟨"title", "a = b\r/", by decide, by decide, by decide⟩,
     ⟨"name", "id", by decide, by decide, by decide⟩]
  ne_nil := by decide
  letters := by decide

/-- An image with attributes that look much like a text. -/
def untitledImage : PlainTag where
  tag := "img"
  attributes :=
    [⟨"src", "salt.png", by decide, by decide, by decide⟩,
     ⟨"data-ALTernate", "Alt", by decide, by decide, by decide⟩,
     ⟨"id", "x", by decide, by decide, by decide⟩]
  ne_nil := by decide
  letters := by decide

/-- The control is flagged in its line, and therefore as an element; the image is flagged as an
element, and therefore in its line. -/
theorem plainTag_agrees_two_tags :
  (unlabelledSelect.line
        = "<select name=\"text\" value=\"\" title=\"a = b\r/\" name=\"id\" />".toList
      ∧ formControlLabel.findings (unlabelledSelect.document "." "a.tsx") unlabelledSelect.page
        ≠ [])
    ∧ untitledImage.line = "<img src=\"salt.png\" data-ALTernate=\"Alt\" id=\"x\" />".toList
    ∧ ∃ check ∈ altText.checks,
        altText.foundBy check (untitledImage.document "." "a.tsx") 1 ≠ []
  := by
  obtain ⟨check, hcheck, hline, -⟩ := plainTag_agrees
    (w := ⟨formLabels, 2, "select", ["aria-label", "aria-labelledby", "id="]⟩)
    (by simp [labelChecks]) (t := unlabelledSelect) rfl "." "a.tsx"
  obtain ⟨check', hcheck', -, helement⟩ := plainTag_agrees
    (w := ⟨altText, 0, "img", ["alt="]⟩) (by simp [labelChecks]) (t := untitledImage) rfl "."
    "a.tsx"
  obtain rfl := Option.some.inj hcheck
  refine ⟨⟨by decide +kernel, hline (by decide +kernel)⟩, by decide +kernel, check',
    List.mem_of_getElem? hcheck', helement ?_ (by decide +kernel)⟩
  decide +kernel

end AccessAudit.Rule
