import AccessAudit.Proofs.Grammar.Yields
import AccessAudit.Proofs.Markup.Written

/-!
# Reading names

How the grammar reads the names of tags, attributes and variables, where a character follows that no
name has.
-/

namespace AccessAudit.Markup.Grammar

open Text Written

variable {d : Dialect} {r : List Char} {l : Nat}

/-! ### Letters and digits -/

theorem isGap_of_isAlphanum {c : Char} (h : c.isAlphanum = true) :
  isGap c = false
  := by
  rw [← Bool.not_eq_true']
  apply of_isAlphanum (p := fun c => !isGap c) (by decide +kernel) h

theorem ne_slash_of_isAlphanum {c : Char} (h : c.isAlphanum = true) :
  c ≠ '/'
  := by
  rintro rfl
  exact absurd h (by decide)

theorem isWordPart_of_isAlphanum {c : Char} (h : c.isAlphanum = true) :
  isWordPart c = true
  := by
  rw [isWordPart, if_pos h]

theorem isWordStart_of_isAlpha {c : Char} (h : c.isAlpha = true) :
  isWordStart c = true
  := of_isAlpha (by decide +kernel) h

theorem isPlainStart_of_isAlpha {c : Char} (h : c.isAlpha = true) :
  (isPlainPart c && !c.isDigit) = true
  := of_isAlpha (p := fun c => isPlainPart c && !c.isDigit) (by decide +kernel) h

theorem isPlainPart_of_isAlphanum {c : Char} (h : c.isAlphanum = true) :
  isPlainPart c = true
  := by
  rw [isPlainPart, h, Bool.true_or, Bool.true_or]

theorem settled_of_isAlphanum {c : Char} (h : c.isAlphanum = true) :
  Settled (c :: r)
  := settled_cons (isGap_of_isAlphanum h) (ne_slash_of_isAlphanum h)

/-! ### Ends of names -/

/-- A text before which every name ends. -/
def NameEnds (r : List Char) : Prop :=
  ∀ x ∈ r.head?, x ∈ [' ', '>', '=', '\x7d']

namespace NameEnds

theorem not_mem {p : Char → Bool} (hp : [' ', '>', '=', '\x7d'].any p = false) (h : NameEnds r) :
  ∀ x ∈ r.head?, p x = false
  := fun x hx => Bool.eq_false_iff.mpr (List.any_eq_false.mp hp x (h x hx))

/-- No text that begins with another character stands where names end. -/
theorem isPrefixOf_eq_false {x : Char} {w : List Char} (hx : x ∉ [' ', '>', '=', '\x7d'])
    (h : NameEnds r) :
  (x :: w).isPrefixOf r = false
  := by
  cases r with
  | nil => rfl
  | cons y r =>
    have hne : (x == y) = false := by
      rw [beq_eq_false_iff_ne]
      rintro rfl
      exact hx (h x rfl)
    rw [List.isPrefixOf, hne, Bool.false_and]

end NameEnds

/-! ### Words -/

/-- A word is read as one. -/
theorem yields_word (n : Word) (hr : NameEnds r) :
  Yields (rules d) Expr.word n.chars r l []
  := by
  have hothers : ∀ c ∈ n.others, isWordPart c = true := by
    intro c hc
    apply isWordPart_of_isAlphanum (n.isAlphanum_others c hc)
  have hend : ∀ x ∈ r.head?, isWordPart x = false := hr.not_mem rfl
  have hnoEscape : ['\\'].isPrefixOf r = false := hr.isPrefixOf_eq_false (by decide)
  have hstart : Yields (rules d) (.char isWordStart) [n.first] (n.others ++ r) l [] :=
    .char (isWordStart_of_isAlpha n.isAlpha_first)
  apply hstart.altLeft.seq ((Yields.span hothers hend).before
    (.starStop (Bars.text hnoEscape).seqLeft.seqLeft))

theorem yields_tagStart (n : HyphenedWord) :
  Yields (rules d) (.char fun c => isPlainPart c && !c.isDigit) [n.first] r l []
  := .char (isPlainStart_of_isAlpha n.isAlpha_first)

/-- A word with a hyphen is read up to its first hyphen, and then with all others. -/
theorem yields_tagWord_of_hyphen (n : HyphenedWord) (hyphen : '-' ∈ n.others) (hr : NameEnds r) :
  Yields (rules d) Expr.tagWord n.chars r l []
  := by
  obtain ⟨u, v, hothers, hu⟩ := List.eq_append_cons_of_mem hyphen
  have hbefore : ∀ c ∈ u, isPlainPart c = true := by
    intro c hc
    have hmem : c ∈ n.others := by
      rw [hothers]
      apply List.mem_append_left _ hc
    obtain h | rfl := n.isPart_others c hmem
    · apply isPlainPart_of_isAlphanum h
    · exact absurd hc hu
  have hafter : ∀ c ∈ v, (isPlainPart c || c == '-') = true := by
    intro c hc
    have hmem : c ∈ n.others := by
      rw [hothers]
      apply List.mem_append_right _ (List.mem_cons_of_mem _ hc)
    obtain h | rfl := n.isPart_others c hmem
    · rw [isPlainPart_of_isAlphanum h, Bool.true_or]
    · rw [beq_self_eq_true, Bool.or_true]
  have hend : ∀ x ∈ r.head?, (isPlainPart x || x == '-') = false := hr.not_mem rfl
  have hstop : ∀ x ∈ (('-' :: v) ++ r).head?, isPlainPart x = false := by
    rintro x ⟨⟩
    decide
  have hspan : Yields (rules d) (.span isPlainPart) u (('-' :: v) ++ r) (l + [n.first].count '\n')
      [] := .span hbefore hstop
  have hhyphen : Yields (rules d) (.text ['-']) ['-'] (v ++ r)
      (l + [n.first].count '\n' + u.count '\n') [] := .text
  rw [HyphenedWord.chars, hothers]
  apply ((yields_tagStart n).seq (hspan.seq (hhyphen.seq (.span hafter hend)))).altLeft

/-- Without a hyphen the word is read as any other name, since no hyphen is found. -/
theorem yields_tagWord_of_no_hyphen (n : HyphenedWord) (hyphen : '-' ∉ n.others)
    (hr : NameEnds r) :
  Yields (rules d) Expr.tagWord n.chars r l []
  := by
  have hothers : ∀ c ∈ n.others, c.isAlphanum = true := by
    intro c hc
    obtain h | rfl := n.isPart_others c hc
    · apply h
    · exact absurd hc hyphen
  have hplain : ∀ c ∈ n.others, isPlainPart c = true := by
    intro c hc
    apply isPlainPart_of_isAlphanum (hothers c hc)
  have hend : ∀ x ∈ r.head?, isPlainPart x = false := hr.not_mem rfl
  have hnoHyphen : ['-'].isPrefixOf r = false := hr.isPrefixOf_eq_false (by decide)
  -- The first alternative reads the whole word and then misses the hyphen.
  apply Yields.altRight
  · apply Bars.seqRight (v := [n.first]) fun l => ⟨[], yields_tagStart n⟩
    apply Bars.seqRight fun l => ⟨[], .span hplain hend⟩
    apply (Bars.text hnoHyphen).seqLeft
  · apply yields_word ⟨n.first, n.others, n.isAlpha_first, hothers⟩ hr

/-- A word with hyphens is read as a name in a tag, and so is a word without any. -/
theorem yields_tagWord (n : HyphenedWord) (hr : NameEnds r) :
  Yields (rules d) Expr.tagWord n.chars r l []
  := by
  by_cases hyphen : '-' ∈ n.others
  · apply yields_tagWord_of_hyphen n hyphen hr
  · apply yields_tagWord_of_no_hyphen n hyphen hr

/-- A node without children that keeps its text. -/
def leafNode (kind : Kind) (w : List Char) (l : Nat) : Tree :=
  .node kind .plain l (l + w.count '\n') (String.ofList w) []

theorem yields_anyName (n : Word) (hr : NameEnds r) :
  Yields (rules d) Expr.anyName n.chars r l [leafNode .identifier n.chars l]
  := by
  have hsettled : Settled (n.chars ++ r) :=
    settled_of_isAlphanum (isAlphanum_of_isAlpha n.isAlpha_first)
  apply ((yields_word n hr).leaf .identifier).afterGap hsettled

theorem yields_tagPart (n : HyphenedWord) (hr : NameEnds r) :
  Yields (rules d) (.inOrder [.gap, .leaf .identifier Expr.tagWord]) n.chars r l
    [leafNode .identifier n.chars l]
  := by
  have hsettled : Settled (n.chars ++ r) :=
    settled_of_isAlphanum (isAlphanum_of_isAlpha n.isAlpha_first)
  apply ((yields_tagWord n hr).leaf .identifier).afterGap hsettled

/-- A word without a colon after it is no name with a namespace. -/
theorem bars_namespaced (n : HyphenedWord) (hr : NameEnds r)
    (hcolon : Bars (rules d) (.token ":") r) :
  Bars (rules d)
    (.leaf .namespaced (.inOrder
      [.inOrder [.gap, .leaf .identifier Expr.tagWord], .token ":",
       .inOrder [.gap, .leaf .identifier Expr.tagWord]]))
    (n.chars ++ r)
  := by
  apply Bars.scope
  apply Bars.seqLeft
  apply Bars.seqRight (fun l => ⟨_, yields_tagPart n hr⟩) hcolon.seqLeft

/-! ### Variables -/

/-- The letters and digits ahead of a word are the word. -/
theorem takeWhile_word {p : Char → Bool} (hp : ∀ c, c.isAlphanum = true → p c = true)
    (hend : [' ', '>', '=', '\x7d'].any p = false) (n : Word) (hr : NameEnds r) :
  (n.chars ++ r).takeWhile p = n.chars
  := by
  have hchars : ∀ c ∈ n.chars, p c = true := by
    intro c hc
    cases hc with
    | head => apply hp _ (isAlphanum_of_isAlpha n.isAlpha_first)
    | tail _ hc => apply hp c (n.isAlphanum_others c hc)
  rw [List.takeWhile_append_of_pos hchars, takeWhile_eq_nil_of_head? (hr.not_mem hend),
    List.append_nil]

/-- A word is read as a name that is none of some words if it is none of them. -/
theorem yields_nameExcept {words : List String} (n : Word) (hn : String.ofList n.chars ∉ words)
    (hr : NameEnds r) :
  Yields (rules d) (.nameExcept words) n.chars r l [leafNode .identifier n.chars l]
  := by
  have hsettled : Settled (n.chars ++ r) :=
    settled_of_isAlphanum (isAlphanum_of_isAlpha n.isAlpha_first)
  have htest : (!startsWithWord words (n.chars ++ r)) = true := by
    rw [startsWithWord, takeWhile_word (fun _ => isWordPart_of_isAlphanum) rfl n hr]
    simpa using hn
  apply Yields.afterGap hsettled
  apply (Yields.test htest).after ((yields_word n hr).leaf .identifier)

/-- What is ahead where a word stands that begins with one of some letters and is none of some
others. -/
def Ahead.word (n : Word) (r : List Char) (hr : NameEnds r) (firsts : List Char)
    (hfirst : n.first ∈ firsts) (absent : List (List Char)) (hn : n.chars ∉ absent) : Ahead where
  rest := n.chars ++ r
  firsts := firsts
  absent := absent
  first_mem := by
    rintro c ⟨⟩
    apply hfirst
  word_not_mem := by
    rw [takeWhile_word (fun _ h => h) rfl n hr]
    apply hn
  settled := settled_of_isAlphanum (isAlphanum_of_isAlpha n.isAlpha_first)

/-! ### Names of tags -/

/-- A word is read as the name of a tag where no colon and no point follows. -/
theorem yields_tagName (n : Word) (hr : NameEnds r) (hcolon : Bars (rules d) (.token ":") r)
    (hpoint : Bars (rules d) (.token ".") r) :
  Yields (rules d) (.rule .tagName) n.chars r l [leafNode .identifier n.chars l]
  := by
  have hrule : rules d .tagName = tagNameRule := by cases d <;> rfl
  have hsettled : Settled (n.chars ++ r) :=
    settled_of_isAlphanum (isAlphanum_of_isAlpha n.isAlpha_first)
  have hmember : Bars (rules d)
      (.leaf .member (.inOrder
        [Expr.anyName, .repeated (.inOrder [.token ".", Expr.anyName])])) (n.chars ++ r) := by
    apply Bars.scope
    apply Bars.seqLeft
    apply Bars.seqRight (fun l => ⟨_, yields_anyName n hr⟩) hpoint.seqLeft.seqLeft
  apply Yields.rule hrule
  apply Yields.afterGap hsettled
  apply Yields.altRight (bars_namespaced n.toHyphenedWord hr hcolon)
  apply Yields.altRight hmember
  apply (yields_tagWord n.toHyphenedWord hr).leaf .identifier

end AccessAudit.Markup.Grammar
