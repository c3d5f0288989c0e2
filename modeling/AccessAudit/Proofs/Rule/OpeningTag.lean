import AccessAudit.Proofs.Rule.Openings

/-!
# Opening tags as they are written

Lines that hold one opening or self-closing tag.  The values of its attributes are texts in quotes
and any texts in braces, so a value may hold a `>` or the opening of another tag.  Outside the
values a `<` stands only at the beginning of the tag, and a `>` only at its end.
-/

namespace AccessAudit.Rule

/-! ### Parts of a tag -/

/-- Blanks between the parts of a tag. -/
structure Blanks where
  chars : List Char
  all_isBlank : chars.all Text.isBlank = true

/-- Whether a name ends at a character: at a blank, and at a mark of the tag. -/
def endsName (c : Char) : Bool :=
  Text.isBlank c || ['<', '>', '=', '/', '"', '\'', '\x7b', '\x7d'].contains c

/-- The name of a tag or of an attribute. -/
structure PlainName where
  chars : List Char
  ne_nil : chars ≠ []
  not_ends : chars.any endsName = false

/-- The value of an attribute. -/
inductive AttributeValue where
  | quoted (mark : Char) (text : List Char) (isQuote : mark = '"' ∨ mark = '\'')
      (not_mem : mark ∉ text)
  | braced (text : List Char)

/-- The text in the quotes or braces. -/
def AttributeValue.text : AttributeValue → List Char
  | .quoted _ text _ _ => text
  | .braced text => text

/-- The text that a value is written as. -/
def AttributeValue.render : AttributeValue → List Char
  | .quoted mark text _ _ => mark :: (text ++ [mark])
  | .braced text => '\x7b' :: (text ++ ['\x7d'])

/-- An attribute of a tag. -/
inductive TagAttribute where
  | bare (name : PlainName)
  | set (name : PlainName) (left right : Blanks) (value : AttributeValue)
  | spread (text : List Char)

namespace TagAttribute

/-- The text in the quotes or braces of an attribute. -/
def inner : TagAttribute → List Char
  | .bare _ => []
  | .set _ _ _ value => value.text
  | .spread text => text

/-- The text that an attribute is written as. -/
def render : TagAttribute → List Char
  | .bare name => name.chars
  | .set name left right value => name.chars ++ left.chars ++ '=' :: (right.chars ++ value.render)
  | .spread text => '\x7b' :: (text ++ ['\x7d'])

/-- Whether an attribute gives a name a value, with the `=` right after the name. -/
def sets (key : String) : TagAttribute → Bool
  | .bare _ => false
  | .set name left _ _ => name.chars == key.toList && left.chars.isEmpty
  | .spread _ => false

/-- Whether attributes stand apart: a name needs blanks before it, unless a value or a spread ends
right there. -/
def standApart (closed : Bool) : List (Blanks × TagAttribute) → Bool
  | [] => true
  | (_, .spread _) :: rest => standApart true rest
  | (gap, .bare _) :: rest => (closed || !gap.chars.isEmpty) && standApart false rest
  | (gap, .set _ _ _ _) :: rest => (closed || !gap.chars.isEmpty) && standApart true rest

/-- Attributes, each after its blanks. -/
def renderAll (attributes : List (Blanks × TagAttribute)) : List Char :=
  attributes.flatMap fun (gap, a) => gap.chars ++ a.render

end TagAttribute

/-- A line with one opening or self-closing tag and blanks around it. -/
structure OpeningTag where
  indent : Blanks
  name : PlainName
  attributes : List (Blanks × TagAttribute)
  gap : Blanks
  selfClosing : Bool
  trail : Blanks
  apart : TagAttribute.standApart false attributes = true

namespace OpeningTag

/-- The name of the tag. -/
def tag (t : OpeningTag) : String :=
  String.ofList t.name.chars

/-- What stands after the attributes. -/
def ending (t : OpeningTag) : List Char :=
  t.gap.chars ++ (if t.selfClosing then ['/', '>'] else ['>']) ++ t.trail.chars

/-- What stands after the name. -/
def body (t : OpeningTag) : List Char :=
  TagAttribute.renderAll t.attributes ++ t.ending

/-- The line from the tag on. -/
def text (t : OpeningTag) : List Char :=
  '<' :: (t.name.chars ++ t.body)

/-- The line. -/
def line (t : OpeningTag) : List Char :=
  t.indent.chars ++ t.text

end OpeningTag

/-! ### Characters outside the values -/

theorem Blanks.not_mem (b : Blanks) {c : Char} (hc : Text.isBlank c = false) :
  c ∉ b.chars
  := by
  intro h
  rw [List.all_eq_true.mp b.all_isBlank c h] at hc
  cases hc

theorem PlainName.not_mem (n : PlainName) {c : Char} (hc : endsName c = true) :
  c ∉ n.chars
  := by
  intro h
  exact List.any_eq_false.mp n.not_ends c h hc

/-- A `>` in an attribute stands in its quotes or braces. -/
theorem TagAttribute.not_mem_render {a : TagAttribute} (h : '>' ∉ a.inner) :
  '>' ∉ a.render
  := by
  have hblank : Text.isBlank '>' = false := by decide
  have hend : endsName '>' = true := by decide
  cases a with
  | bare name => apply name.not_mem hend
  | set name left right value =>
    have hvalue : '>' ∉ value.render := by
      cases value with
      | quoted mark text isQuote not_mem =>
        have hmark : mark ≠ '>' := by
          rcases isQuote with rfl | rfl
          · decide
          · decide
        simpa [AttributeValue.render, inner, AttributeValue.text, hmark.symm] using h
      | braced text => simpa [AttributeValue.render, inner, AttributeValue.text] using h
    simp [render, name.not_mem hend, left.not_mem hblank, right.not_mem hblank, hvalue]
  | spread text => simpa [render, inner] using h

/-- Attributes without `>` in their values are written without `>`. -/
theorem TagAttribute.not_mem_renderAll {attributes : List (Blanks × TagAttribute)}
    (h : ∀ item ∈ attributes, '>' ∉ item.2.inner) :
  '>' ∉ renderAll attributes
  := by
  intro hmem
  obtain ⟨⟨gap, a⟩, ha, hmem⟩ := List.mem_flatMap.mp hmem
  rcases List.mem_append.mp hmem with hmem | hmem
  · exact gap.not_mem (by decide) hmem
  · exact not_mem_render (h (gap, a) ha) hmem

/-! ### The text of a tag -/

/-- What has no `>` stands before the next `>`. -/
theorem tagRest_append {s : List Char} (h : '>' ∉ s) (t : List Char) :
  tagRest (s ++ t) = s ++ tagRest t
  := by
  apply List.takeWhile_append_of_pos
  intro c hc
  have : c ≠ '>' := by
    rintro rfl
    exact h hc
  simpa using this

/-- A character that is not in the first part of a text stands in the other part. -/
theorem exists_append_of_not_mem {s t u v : List Char} {c : Char} (hc : c ∉ s)
    (h : s ++ t = u ++ c :: v) :
  ∃ w, t = w ++ c :: v
  := by
  rcases List.append_eq_append_iff.mp h with ⟨w, -, hw⟩ | ⟨w, rfl, hw⟩
  · exact ⟨w, hw⟩
  · cases w with
    | nil => exact ⟨[], hw.symm⟩
    | cons x w =>
      obtain ⟨rfl, -⟩ := List.cons.inj hw
      simp at hc

namespace OpeningTag

variable (t : OpeningTag)

/-- What stands after the name does not go on with a word. -/
theorem head?_body :
  t.body.head?.any Text.isWord = false
  := by
  have blank : ∀ (b : Blanks) (s : List Char), (b.chars = [] → s.head?.any Text.isWord = false) →
      (b.chars ++ s).head?.any Text.isWord = false := by
    intro b s h
    cases hchars : b.chars with
    | nil => apply h hchars
    | cons c chars =>
      have hall := b.all_isBlank
      rw [hchars, List.all_cons, Bool.and_eq_true] at hall
      apply Text.isWord_eq_false_of_isBlank hall.1
  -- After the name stands a blank, or the first attribute or the end of the tag without one.
  have hapart := t.apart
  rw [body]
  cases hattributes : t.attributes with
  | nil =>
    rw [ending, List.append_assoc]
    apply blank t.gap
    intro _
    cases t.selfClosing with
    | true =>
      have : Text.isWord '/' = false := by decide +kernel
      simpa using this
    | false =>
      have : Text.isWord '>' = false := by decide +kernel
      simpa using this
  | cons item rest =>
    obtain ⟨gap, a⟩ := item
    rw [hattributes] at hapart
    rw [TagAttribute.renderAll, List.flatMap_cons, List.append_assoc, List.append_assoc]
    apply blank gap
    intro hgap
    cases a with
    | bare name => simp [TagAttribute.standApart, hgap] at hapart
    | set name left right value => simp [TagAttribute.standApart, hgap] at hapart
    | spread text =>
      have : Text.isWord '\x7b' = false := by decide +kernel
      simpa [TagAttribute.render] using this

theorem text_or_body_of_line {u v : List Char} (h : t.line = u ++ '<' :: v) :
  t.text = '<' :: v ∨ ∃ w, t.body = w ++ '<' :: v
  := by
  obtain ⟨w, hw⟩ := exists_append_of_not_mem (t.indent.not_mem (by decide)) h
  rcases List.cons_eq_append_iff.mp hw with ⟨-, hw⟩ | ⟨w, -, hw⟩
  · exact .inl hw.symm
  · exact .inr (exists_append_of_not_mem (t.name.not_mem (by decide)) hw)

end OpeningTag

end AccessAudit.Rule
