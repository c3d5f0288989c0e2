import AccessAudit.Proofs.Rule.Excuses
import AccessAudit.Proofs.Rule.RequiredAttributes
import Mathlib.Data.List.Infix

/-!
# Icon buttons

Which buttons the check for icon buttons flags.  It looks at what stands behind the opening tag and
the blanks after it: one self-closing tag, any text without a `<`, and the closing tag.  So a button
with a text before its icon, or with a second element, is not flagged.  Attributes do not count, nor
does a text right after the icon: a button that has its label there is flagged all the same.
-/

namespace AccessAudit.Rule

/-! ### Contents -/

/-- What stands behind the next `>` and the blanks after it. -/
def content (s : List Char) : List Char :=
  (s.dropWhile (· != '>')).tail.dropWhile Text.isBlank

/-- A content of one self-closing tag and text after it, up to the closing tag of a button. -/
def IconOnly (s : List Char) : Prop :=
  ∃ icon label close rest,
    s = '<' :: (icon ++ '/' :: '>' :: (label ++ '<' :: '/' :: (close ++ '>' :: rest)))
      ∧ '>' ∉ icon ∧ '<' ∉ label ∧ close.map Text.fold = "button".toList.map Text.fold

/-- A place of a line, counted in bytes, at which a button opens that has only an icon. -/
def IconButtonAt (line : List Char) (n : Nat) : Prop :=
  ∃ before after, line = before ++ after ∧ n = Text.byteLength before ∧ Opens "button" after
    ∧ IconOnly (content after)

/-- A content that begins with something else than an icon, or has a second element. -/
inductive MoreThanIcon (s : List Char) : Prop
  | text (h : s.head? ≠ some '<')
  | element {tag rest : List Char} (h : s = tag ++ '>' :: rest) (hclosed : '>' ∉ tag)
    (hlast : tag.getLast? ≠ some '/')
  | another {icon label rest : List Char}
    (h : s = '<' :: (icon ++ '/' :: '>' :: (label ++ '<' :: rest))) (hicon : '>' ∉ icon)
    (hlabel : '<' ∉ label) (hopens : rest.head? ≠ some '/')

/-- What has no `>` does not change the content. -/
theorem content_append {s : List Char} (hs : '>' ∉ s) (t : List Char) :
  content (s ++ t) = content t
  := by
  rw [content, List.dropWhile_append_of_pos]
  · rfl
  · intro c hc
    have : c ≠ '>' := by
      rintro rfl
      exact hs hc
    simpa using this

/-- What stands behind a `>` and blanks is the content. -/
theorem content_cons (b : Blanks) {t : List Char} (ht : t.head?.any Text.isBlank = false) :
  content ('>' :: (b.chars ++ t)) = t
  := by
  have hblanks : (b.chars ++ t).dropWhile Text.isBlank = t.dropWhile Text.isBlank :=
    List.dropWhile_append_of_pos (List.all_eq_true.mp b.all_isBlank)
  rw [content, List.dropWhile_cons_of_neg (by decide), List.tail_cons, hblanks]
  cases t with
  | nil => rfl
  | cons c t => rw [List.dropWhile_cons_of_neg (by simpa using ht)]

/-- A content stands behind a first `>` and blanks. -/
theorem exists_of_content_ne_nil {s : List Char} (h : content s ≠ []) :
  ∃ u, ∃ b : Blanks, s = u ++ '>' :: (b.chars ++ content s) ∧ '>' ∉ u
  := by
  have hsplit := List.takeWhile_append_dropWhile (p := (· != '>')) (l := s)
  cases hdrop : s.dropWhile (· != '>') with
  | nil =>
    rw [content, hdrop] at h
    exact absurd rfl h
  | cons c r =>
    have hc := List.head?_dropWhile_not (· != '>') s
    rw [hdrop] at hc
    obtain rfl : c = '>' := by simpa using hc
    refine ⟨tagRest s, ⟨r.takeWhile Text.isBlank, List.all_takeWhile⟩, ?_, ?_⟩
    · rw [content, hdrop, List.tail_cons, List.takeWhile_append_dropWhile, ← hdrop]
      exact hsplit.symm
    · intro hmem
      exact ne_of_mem_tagRest hmem rfl

/-- What stands before and behind the first place of a character is determined by the text. -/
theorem append_cons_inj {c : Char} {s t u v : List Char} (hs : c ∉ s) (hu : c ∉ u)
    (h : s ++ c :: t = u ++ c :: v) :
  s = u ∧ t = v
  := by
  induction s generalizing u with
  | nil =>
    cases u with
    | nil => exact ⟨rfl, (List.cons.inj h).2⟩
    | cons d u =>
      obtain ⟨rfl, -⟩ := List.cons.inj h
      simp at hu
  | cons d s ih =>
    cases u with
    | nil =>
      obtain ⟨rfl, -⟩ := List.cons.inj h
      simp at hs
    | cons e u =>
      obtain ⟨rfl, hrest⟩ := List.cons.inj h
      rw [List.mem_cons, not_or] at hs hu
      obtain ⟨rfl, rfl⟩ := ih hs.2 hu.2 hrest
      exact ⟨rfl, rfl⟩

/-- A content that is more than an icon is not one alone. -/
theorem MoreThanIcon.not_iconOnly {s : List Char} (h : MoreThanIcon s) :
  ¬IconOnly s
  := by
  rintro ⟨icon, label, close, rest, rfl, hicon, hlabel, hclose⟩
  have hslash : '>' ∉ icon ++ ['/'] := by simpa using hicon
  cases h with
  | text h => exact h rfl
  | @element tag rest' h hclosed hlast =>
    have htag : ('<' :: (icon ++ ['/'])) ++ '>' :: (label ++ '<' :: '/' :: (close ++ '>' :: rest))
        = tag ++ '>' :: rest' := by
      rw [← h]
      simp
    obtain ⟨rfl, -⟩ := append_cons_inj (by simpa using hicon) hclosed htag
    exact hlast (List.getLast?_concat (l := '<' :: icon))
  | @another icon' label' rest' h hicon' hlabel' hopens =>
    have htag : (icon ++ ['/']) ++ '>' :: (label ++ '<' :: '/' :: (close ++ '>' :: rest))
        = (icon' ++ ['/']) ++ '>' :: (label' ++ '<' :: rest') := by
      simpa using h
    obtain ⟨-, h⟩ := append_cons_inj hslash (by simpa using hicon') htag
    obtain ⟨-, rfl⟩ := append_cons_inj hlabel hlabel' h
    exact hopens rfl

/-! ### The pattern -/

/-- The pattern of an icon and text after it, up to the closing tag of a button. -/
def onlyIcon : Pattern :=
  .char '<' :: .many (.except '>') :: .char '/' :: .char '>' :: .many (.except '<')
    :: Pattern.text "</button>"

/-- The pattern of buttons that have only an icon. -/
def iconButton : Pattern :=
  tagStart "button" ++ .many (.except '>') :: .char '>' :: .many .blank :: onlyIcon

namespace Pattern

variable {p : Pattern} {before : Option Char} {s : List Char}

theorem matchAt_many_except {c : Char} :
  (matchAt (.many (.except c) :: p) ⟨before, s⟩).isSome = true
    ↔ ∃ taken rest, s = taken ++ rest ∧ c ∉ taken
        ∧ (matchAt p ⟨taken.getLast?.or before, rest⟩).isSome = true
  := by
  simp only [matchAt, manyThen_isSome, forall_holds_except_iff]

/-- The closing tag of a button, after a text without a `<`. -/
theorem matchAt_closing :
  (matchAt (.many (.except '<') :: Pattern.text "</button>") ⟨before, s⟩).isSome = true
    ↔ ∃ label close rest, s = label ++ '<' :: '/' :: (close ++ '>' :: rest) ∧ '<' ∉ label
        ∧ close.map Text.fold = "button".toList.map Text.fold
  := by
  have hpieces : Pattern.text "</button>"
      = .char '<' :: .char '/' :: ("button".toList.map Piece.char ++ [.char '>']) := by
    decide
  rw [hpieces, matchAt_many_except]
  simp only [matchAt_mark (c := '<') rfl (by decide), matchAt_mark (c := '/') rfl (by decide),
    matchAt_text_append, matchAt_mark (c := '>') rfl (by decide)]
  constructor
  · rintro ⟨label, _, rfl, hlabel, _, rfl, _, rfl, close, _, rfl, hclose, rest, rfl, -⟩
    exact ⟨label, close, rest, rfl, hlabel, hclose⟩
  · rintro ⟨label, close, rest, rfl, hlabel, hclose⟩
    exact ⟨label, _, rfl, hlabel, _, rfl, _, rfl, close, _, rfl, hclose, rest, rfl, rfl⟩

/-- An icon and what may follow it up to the closing tag of a button. -/
theorem matchAt_onlyIcon :
  (matchAt onlyIcon ⟨before, s⟩).isSome = true ↔ IconOnly s
  := by
  rw [onlyIcon, matchAt_mark rfl (by decide)]
  simp only [matchAt_many_except (c := '>'), matchAt_mark (c := '/') rfl (by decide),
    matchAt_mark (c := '>') rfl (by decide), matchAt_closing]
  constructor
  · rintro ⟨_, rfl, icon, _, rfl, hicon, _, rfl, _, rfl, label, close, rest, rfl, hlabel, hclose⟩
    exact ⟨icon, label, close, rest, rfl, hicon, hlabel, hclose⟩
  · rintro ⟨icon, label, close, rest, rfl, hicon, hlabel, hclose⟩
    exact ⟨_, rfl, icon, _, rfl, hicon, _, rfl, _, rfl, label, close, rest, rfl, hlabel, hclose⟩

/-- Blanks are passed over up to some place. -/
theorem matchAt_many_blank :
  (matchAt (.many .blank :: p) ⟨before, s⟩).isSome = true
    ↔ ∃ b : Blanks, ∃ rest, s = b.chars ++ rest
        ∧ (matchAt p ⟨b.chars.getLast?.or before, rest⟩).isSome = true
  := by
  simp only [matchAt, manyThen_isSome]
  constructor
  · rintro ⟨taken, rest, rfl, htaken, h⟩
    exact ⟨⟨taken, List.all_eq_true.mpr htaken⟩, rest, rfl, h⟩
  · rintro ⟨b, rest, rfl, h⟩
    exact ⟨b.chars, rest, rfl, List.all_eq_true.mp b.all_isBlank, h⟩

/-- The pattern of icon buttons matches where a button opens that has only an icon. -/
theorem matchAt_iconButton :
  (matchAt iconButton ⟨before, s⟩).isSome = true ↔ Opens "button" s ∧ IconOnly (content s)
  := by
  have hclosed {head : List Char} (h : head.map Text.fold = "button".toList.map Text.fold) :
      '>' ∉ '<' :: head := by
    simpa using not_mem_of_map_fold_eq h rfl (by decide) (by decide)
  rw [iconButton, matchAt_tagStart_append]
  simp only [matchAt_many_except (c := '>'), matchAt_mark (c := '>') rfl (by decide),
    matchAt_many_blank, matchAt_onlyIcon]
  constructor
  · rintro ⟨head, _, rfl, hhead, hword, taken, _, rfl, htaken, _, rfl, b, rest, rfl, hicon⟩
    rw [← getLast?_cons_or '<' head none, Option.or_none] at hword
    refine ⟨⟨head, _, rfl, hhead, hword⟩, ?_⟩
    have hblank : rest.head?.any Text.isBlank = false := by
      obtain ⟨icon, label, close, rest, rfl, -⟩ := hicon
      exact (by decide : Text.isBlank '<' = false)
    rwa [← List.cons_append, content_append (hclosed hhead), content_append htaken,
      content_cons b hblank]
  · rintro ⟨⟨head, rest, rfl, hhead, hword⟩, hicon⟩
    rw [← Option.or_none (o := List.getLast? _), getLast?_cons_or] at hword
    rw [← List.cons_append, content_append (hclosed hhead)] at hicon
    have hne : content rest ≠ [] := by
      obtain ⟨icon, label, close, rest', h, -⟩ := hicon
      rw [h]
      exact List.cons_ne_nil _ _
    obtain ⟨taken, b, hrest, htaken⟩ := exists_of_content_ne_nil hne
    exact ⟨head, rest, rfl, hhead, hword, taken, _, hrest, htaken, _, rfl, b, _, rfl, hicon⟩

end Pattern

/-! ### Flagged buttons -/

/-- The line of a tag with an icon and a text after it, up to the closing tag of a button. -/
def OpeningTag.withIcon (t : OpeningTag) (icon label : List Char) : List Char :=
  t.line ++ '<' :: (icon ++ '/' :: '>' :: (label ++ "</button>".toList))

/-- The pattern of icon buttons matches at the places of icon buttons. -/
theorem matchesAt_iconButton {line : List Char} {n : Nat} :
  iconButton.MatchesAt line n ↔ IconButtonAt line n
  := by
  simp only [Pattern.MatchesAt, Pattern.matchAt_iconButton]
  constructor
  · rintro ⟨before, after, hline, hn, -, h⟩
    exact ⟨before, after, hline, hn, h⟩
  · rintro ⟨before, after, hline, hn, hopens, hicon⟩
    refine ⟨before, after, hline, hn, ?_, hopens, hicon⟩
    obtain ⟨head, rest, rfl, -⟩ := hopens
    exact List.cons_ne_nil _ _

/-- The check for icon buttons flags the least place at which a button opens that has only an
icon. -/
theorem flagsLeast_iconButton {check : LineCheck} (hcheck : altText.checks[3]? = some check) :
  FlagsLeast altText check IconButtonAt
  := by
  apply FlagsLeast.of_firstMatch? (List.mem_of_getElem? hcheck) (by decide)
  obtain ⟨hpattern, hexcuses⟩ : check.pattern = iconButton ∧ check.excuses = [] := by
    obtain rfl := Option.some.inj hcheck
    exact ⟨rfl, rfl⟩
  intro line n
  simp only [LineCheck.firstMatch?_eq_some_iff_matchesAt hexcuses, hpattern, matchesAt_iconButton]

/-- An icon right behind an opening tag of a button makes it an icon button, whatever attributes
without a `>` in their values it has and whatever text stands after the icon. -/
theorem isLeast_withIcon {t : OpeningTag} (htag : t.tag = "button") (hopen : t.selfClosing = false)
    (hclosed : ∀ item ∈ t.attributes, '>' ∉ item.2.inner) {icon label : List Char}
    (hicon : '>' ∉ icon) (hlabel : '<' ∉ label) :
  IsLeast {n | IconButtonAt (t.withIcon icon label) n} (Text.byteLength t.indent.chars)
  := by
  have hname : t.name.chars = "button".toList := by
    rw [← htag, OpeningTag.tag, String.toList_ofList]
  let inside := '<' :: (icon ++ '/' :: '>' :: (label ++ "</button>".toList))
  have hline : t.withIcon icon label = t.indent.chars ++ (t.text ++ inside) := by
    rw [OpeningTag.withIcon, OpeningTag.line, List.append_assoc]
  constructor
  · refine ⟨t.indent.chars, t.text ++ inside, hline, rfl, ?_, ?_⟩
    · refine ⟨t.name.chars, t.body ++ inside, ?_, by rw [hname], ?_⟩
      · rw [OpeningTag.text, List.cons_append, List.append_assoc]
      · have hhead : (t.body ++ inside).head? = t.body.head? := by
          apply List.head?_append_of_ne_nil
          simp [OpeningTag.body, OpeningTag.ending, hopen]
        rw [Text.atBoundary, hhead, t.head?_body, hname]
        decide +kernel
    · -- What stands before the `>` of the tag has none.
      have htext : t.text ++ inside
          = ('<' :: (t.name.chars ++ (TagAttribute.renderAll t.attributes ++ t.gap.chars)))
            ++ '>' :: (t.trail.chars ++ inside) := by
        simp [OpeningTag.text, OpeningTag.body, OpeningTag.ending, hopen]
      have hbefore : '>' ∉ '<' :: (t.name.chars
          ++ (TagAttribute.renderAll t.attributes ++ t.gap.chars)) := by
        have hend : '>' ∉ t.name.chars := t.name.not_mem (by decide)
        have hgap : '>' ∉ t.gap.chars := t.gap.not_mem (by decide)
        simp [hend, hgap, TagAttribute.not_mem_renderAll hclosed]
      have hblank : inside.head?.any Text.isBlank = false :=
        (by decide : Text.isBlank '<' = false)
      rw [htext, content_append hbefore, content_cons t.trail hblank]
      exact ⟨icon, label, "button".toList, [], rfl, hicon, hlabel, rfl⟩
  -- No place before the tag will do, as a button opens with a `<` and only blanks stand there.
  · rintro n ⟨before, after, hsplit, rfl, ⟨head, rest, rfl, -⟩, -⟩
    rw [hline] at hsplit
    obtain ⟨w, hw⟩ := exists_append_of_not_mem (t.indent.not_mem (by decide)) hsplit
    rw [hw, ← List.append_assoc, List.append_cancel_right_eq] at hsplit
    rw [← hsplit, Text.byteLength_append]
    exact Nat.le_add_right _ _

/-- The check for icon buttons makes no finding on a line of a document exactly if no button opens
there that has only an icon and text after it, and else one finding at the least such place.  So it
finds nothing if every button of the line begins with a text or with an element that does not close
itself, or has another element after the icon.  But it flags every button that begins with its icon,
whatever attributes without a `>` in their values the button has and whatever text stands after the
icon. -/
theorem foundBy_iconButton {check : LineCheck} (hcheck : altText.checks[3]? = some check)
    {d : Document} {number : Nat} {line : List Char} (hline : (number, line) ∈ d.numberedLines) :
  (altText.foundBy check d number = []
      ↔ ∀ before after, line = before ++ after → Opens "button" after → ¬IconOnly (content after))
    ∧ (∀ n, (∃ f, altText.foundBy check d number = [f] ∧ f.location = d.location number (n + 1))
      ↔ IsLeast {n | IconButtonAt line n} n)
    ∧ ((∀ before after, line = before ++ after → Opens "button" after →
        MoreThanIcon (content after)) → altText.foundBy check d number = [])
    ∧ ∀ (t : OpeningTag) (icon label : List Char), line = t.withIcon icon label →
      t.tag = "button" → t.selfClosing = false → (∀ item ∈ t.attributes, '>' ∉ item.2.inner) →
        '>' ∉ icon → '<' ∉ label →
          ∃ f, altText.foundBy check d number = [f]
            ∧ f.location = d.location number (Text.byteLength t.indent.chars + 1)
  := by
  have hleast := flagsLeast_iconButton hcheck
  have hnone : altText.foundBy check d number = []
      ↔ ∀ before after, line = before ++ after → Opens "button" after →
          ¬IconOnly (content after) := by
    rw [← hleast.not_found_iff d number line hline, hleast.none_iff line]
    constructor
    · intro h before after hsplit hopens hicon
      exact h _ ⟨before, after, hsplit, rfl, hopens, hicon⟩
    · rintro h n ⟨before, after, hsplit, -, hopens, hicon⟩
      exact h before after hsplit hopens hicon
  refine ⟨hnone, ?_, ?_, ?_⟩
  · intro n
    rw [← hleast.found_iff d number line hline, hleast.some_iff]
  · intro hmore
    apply hnone.mpr
    intro before after hsplit hopens
    exact (hmore before after hsplit hopens).not_iconOnly
  · rintro t icon label rfl htag hopen hclosed hicon hlabel
    rw [← hleast.found_iff d number _ hline, hleast.some_iff]
    exact isLeast_withIcon htag hopen hclosed hicon hlabel

/-- A document of two lines: on the first one the text of the button stands before the icon, on the
second one behind it. -/
def closePage : Document :=
  ⟨"App.tsx", ["<button>Close <XIcon /></button>".toList,
    closeButton.withIcon "XIcon ".toList " Close".toList]⟩

/-- The button with its text before the icon is not flagged, and the one with a label and with a
text after the icon is. -/
theorem foundBy_iconButton_closePage :
  ∃ check, altText.checks[3]? = some check
    ∧ altText.foundBy check closePage 1 = []
    ∧ ∃ f, altText.foundBy check closePage 2 = [f] ∧ f.location = ⟨"App.tsx", 2, 1⟩
  := by
  let line := "<button>Close <XIcon /></button>".toList
  have hfirst : (1, line) ∈ closePage.numberedLines := by decide +kernel
  have hsecond : (2, closeButton.withIcon "XIcon ".toList " Close".toList)
      ∈ closePage.numberedLines := by
    decide +kernel
  obtain ⟨check, hcheck⟩ : ∃ check, altText.checks[3]? = some check := ⟨_, rfl⟩
  refine ⟨check, hcheck, (foundBy_iconButton hcheck hfirst).2.2.1 ?_, ?_⟩
  · intro before after hsplit hopens
    -- The one opening of a button stands at the beginning.
    have htails : ∀ s ∈ line.tails,
        (Pattern.matchAt (tagStart "button") ⟨none, s⟩).isSome = true →
          (content s).head? ≠ some '<' := by
      decide +kernel
    have hafter : after ∈ line.tails := by
      rw [List.mem_tails, hsplit]
      exact List.suffix_append before after
    exact .text (htails after hafter (matchAt_tagStart_iff.mpr hopens))
  · exact (foundBy_iconButton hcheck hsecond).2.2.2 closeButton _ _ rfl (by decide) rfl (by decide)
      (by decide) (by decide)

/-- The button with a label is flagged although it has one. -/
theorem findings_closeButton :
  (closeButton.attributes.any fun item => item.2.sets "aria-label") = true
    ∧ closeButton.withIcon "XIcon ".toList []
      = "<button aria-label=\"Close\"><XIcon /></button>".toList
    ∧ (altText.findings ⟨"App.tsx", [closeButton.withIcon "XIcon ".toList []]⟩).map
        (fun f => (f.message, f.location))
      = [("Icon-only button needs aria-label", ⟨"App.tsx", 1, 1⟩)]
  := by
  decide +kernel

end AccessAudit.Rule
