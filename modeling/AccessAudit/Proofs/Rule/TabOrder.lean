import AccessAudit.Proofs.Rule.Excuses
import AccessAudit.Proofs.Rule.RequiredAttributes
import AccessAudit.Proofs.Text.Digits

/-!
# Tab order

Which tab orders the check for positive ones flags.  It looks for `tabIndex=` in letters of either
case and, right behind it or behind one quote, for a digit from one to nine.  So a number in quotes
is flagged exactly if it is positive, and a number in braces is never flagged.
-/

namespace AccessAudit.Rule

/-! ### Positive numbers -/

/-- A text that begins with a digit from one to nine. -/
def BeginsPositive (s : List Char) : Prop :=
  ∃ c rest, s = c :: rest ∧ '1' ≤ c ∧ c ≤ '9'

theorem beginsPositive_append_iff {s t : List Char} (hs : s ≠ []) :
  BeginsPositive (s ++ t) ↔ BeginsPositive s
  := by
  obtain ⟨c, s, rfl⟩ := List.exists_cons_of_ne_nil hs
  simp [BeginsPositive]

/-- The decimal digits of a number begin with one that is not zero exactly if the number is
positive. -/
theorem beginsPositive_toDigits_iff {n : Nat} :
  BeginsPositive (Nat.toDigits 10 n) ↔ 0 < n
  := by
  constructor
  · rintro ⟨c, rest, hdigits, hlow, -⟩
    by_contra hn
    obtain rfl : n = 0 := by omega
    obtain ⟨rfl, -⟩ := List.cons.inj hdigits
    exact absurd hlow (by decide)
  · intro hn
    obtain ⟨c, rest, hdigits⟩ := List.exists_cons_of_ne_nil (Nat.toDigits_ne_nil (b := 10) (n := n))
    have hc : c.isDigit = true := Text.isDigit_of_mem_toDigits (hdigits ▸ List.mem_cons_self)
    have hzero : c ≠ '0' := by
      rintro rfl
      exact Text.head?_toDigits_ne hn (by rw [hdigits]; rfl)
    have hcode : c.toNat ≠ '0'.toNat := fun h => hzero (Char.toNat_inj.mp h)
    refine ⟨c, rest, hdigits, ?_⟩
    simp only [Char.isDigit, ge_iff_le, Bool.and_eq_true, decide_eq_true_eq, Char.le_def,
      UInt32.le_iff_toNat_le, Char.toNat_val, Char.reduceVal, Char.reduceToNat,
      UInt32.reduceToNat] at hc hcode ⊢
    omega

/-- An integer is written beginning with a digit from one to nine exactly if it is positive. -/
theorem beginsPositive_toString_iff {i : Int} :
  BeginsPositive (toString i).toList ↔ 0 < i
  := by
  rw [Text.toList_toString]
  split
  · rw [beginsPositive_toDigits_iff]
    omega
  · have hneg : ¬0 < i := by omega
    simp [BeginsPositive, hneg]

/-! ### The pattern -/

/-- A text with a positive number at its beginning, or right behind a quote there. -/
def GivesPositive (s : List Char) : Prop :=
  BeginsPositive s ∨ ∃ mark rest, (mark = '"' ∨ mark = '\'') ∧ s = mark :: rest ∧ BeginsPositive rest

/-- A place of a line, counted in bytes, at which `tabIndex=` stands before a positive number. -/
def PositiveOrderAt (line : List Char) (n : Nat) : Prop :=
  ∃ before name after, line = before ++ (name ++ '=' :: after) ∧ n = Text.byteLength before
    ∧ name.map Text.fold = "tabIndex".toList.map Text.fold ∧ GivesPositive after

/-- Whether a piece of a pattern may be left out. -/
def Piece.mayBeOmitted : Piece → Bool
  | .optional _ | .many _ => true
  | .char _ | .one _ | .boundary => false

/-- The pattern of a positive number, with one quote or none on either side. -/
def positiveNumber : Pattern :=
  [.optional (.oneOf ['"', '\'']), .one (.range '1' '9'), .many .digit,
    .optional (.oneOf ['"', '\''])]

namespace Pattern

/-- A pattern matches everywhere if all its pieces may be left out. -/
theorem matchAt_of_mayBeOmitted {p : Pattern} (hp : p.all Piece.mayBeOmitted = true)
    {before : Option Char} {s : List Char} :
  (matchAt p ⟨before, s⟩).isSome = true
  := by
  induction p with
  | nil => rfl
  | cons piece p ih =>
    rw [List.all_cons, Bool.and_eq_true] at hp
    cases piece with
    | optional k => exact (matchAt_optional k p before s).mpr (.inr (ih hp.2))
    | many k =>
      rw [matchAt, manyThen_isSome]
      exact ⟨[], s, rfl, List.forall_mem_nil _, ih hp.2⟩
    | char | one | boundary => cases hp.1

/-- The pattern of a positive number matches where one begins, behind one quote or none. -/
theorem matchAt_positiveNumber {before : Option Char} {s : List Char} :
  (matchAt positiveNumber ⟨before, s⟩).isSome = true ↔ GivesPositive s
  := by
  have hdigit {before : Option Char} {s : List Char} :
      (matchAt (positiveNumber.drop 1) ⟨before, s⟩).isSome = true ↔ BeginsPositive s := by
    have hend {c : Char} {s : List Char} :
        (matchAt (positiveNumber.drop 2) ⟨some c, s⟩).isSome = true :=
      matchAt_of_mayBeOmitted rfl
    simp only [positiveNumber, List.drop_succ_cons, List.drop_zero] at hend ⊢
    simp only [matchAt_one, hend, and_true, CharClass.holds, Bool.and_eq_true, decide_eq_true_eq]
    rfl
  simp only [positiveNumber, List.drop_succ_cons, List.drop_zero] at hdigit ⊢
  simp only [matchAt_optional, hdigit, CharClass.holds, List.contains_iff_mem, List.mem_cons,
    List.not_mem_nil, or_false, GivesPositive]
  constructor
  · rintro (⟨c, rest, rfl, hc, h⟩ | h)
    · exact .inr ⟨c, rest, hc, rfl, h⟩
    · exact .inl h
  · rintro (h | ⟨c, rest, hc, rfl, h⟩)
    · exact .inr h
    · exact .inl ⟨c, rest, rfl, hc, h⟩

end Pattern

/-- The pattern of positive tab orders. -/
def positiveOrder : Pattern :=
  Pattern.text "tabIndex=" ++ positiveNumber

/-- The pattern of positive tab orders matches at their places. -/
theorem matchesAt_positiveOrder {line : List Char} {n : Nat} :
  positiveOrder.MatchesAt line n ↔ PositiveOrderAt line n
  := by
  have hpieces : positiveOrder
      = "tabIndex".toList.map Piece.char ++ .char '=' :: positiveNumber := by
    decide
  simp only [Pattern.MatchesAt, hpieces, Pattern.matchAt_text_append,
    Pattern.matchAt_mark (c := '=') rfl (by decide), Pattern.matchAt_positiveNumber]
  constructor
  · rintro ⟨before, _, rfl, hn, -, name, _, rfl, hname, after, rfl, h⟩
    exact ⟨before, name, after, rfl, hn, hname, h⟩
  · rintro ⟨before, name, after, rfl, hn, hname, h⟩
    exact ⟨before, _, rfl, hn, by simp, name, _, rfl, hname, after, rfl, h⟩

/-- The check for tab orders flags the least place of a positive one. -/
theorem flagsLeast_positiveOrder {check : LineCheck}
    (hcheck : keyboardNavigation.checks[0]? = some check) :
  FlagsLeast keyboardNavigation check PositiveOrderAt
  := by
  apply FlagsLeast.of_firstMatch? (List.mem_of_getElem? hcheck) (by decide)
  obtain ⟨hpattern, hexcuses⟩ : check.pattern = positiveOrder ∧ check.excuses = [] := by
    obtain rfl := Option.some.inj hcheck
    exact ⟨rfl, rfl⟩
  intro line n
  simp only [LineCheck.firstMatch?_eq_some_iff_matchesAt hexcuses, hpattern,
    matchesAt_positiveOrder]

/-! ### Tags with a tab order -/

/-- Whether a value stands in quotes. -/
def AttributeValue.inQuotes : AttributeValue → Bool
  | .quoted _ _ _ _ => true
  | .braced _ => false

/-- An attribute that sets the tab order. -/
def orderAttribute (v : AttributeValue) : TagAttribute :=
  .set ⟨"tabIndex".toList, by decide, by decide⟩ noBlanks noBlanks v

/-- The line `<a tabIndex=…>`. -/
def orderLink (v : AttributeValue) : OpeningTag where
  indent := noBlanks
  name := ⟨['a'], by decide, by decide⟩
  attributes := [(space, orderAttribute v)]
  gap := noBlanks
  selfClosing := false
  trail := noBlanks
  apart := rfl

/-- An integer as a value is positive for the pattern exactly if it stands in quotes and is
positive. -/
theorem givesPositive_render_iff {v : AttributeValue} {i : Int}
    (hv : v.text = (toString i).toList) (t : List Char) :
  GivesPositive (v.render ++ t) ↔ v.inQuotes = true ∧ 0 < i
  := by
  cases v with
  | quoted mark text isQuote not_mem =>
    have hmark : ¬BeginsPositive (mark :: (text ++ [mark] ++ t)) := by
      rintro ⟨c, rest, hc, hlow, hhigh⟩
      obtain ⟨rfl, -⟩ := List.cons.inj hc
      rcases isQuote with rfl | rfl
      · exact absurd hlow (by decide)
      · exact absurd hlow (by decide)
    have htext : BeginsPositive (text ++ [mark] ++ t) ↔ 0 < i := by
      obtain rfl : text = (toString i).toList := hv
      rw [List.append_assoc, beginsPositive_append_iff (Text.toList_toString_ne_nil i),
        beginsPositive_toString_iff]
    rw [AttributeValue.render, List.cons_append]
    constructor
    · rintro (h | ⟨mark', rest, -, hrest, h⟩)
      · exact absurd h hmark
      · obtain ⟨-, rfl⟩ := List.cons.inj hrest
        exact ⟨rfl, htext.mp h⟩
    · rintro ⟨-, hi⟩
      exact .inr ⟨mark, _, isQuote, rfl, htext.mpr hi⟩
  | braced text =>
    simp [AttributeValue.render, AttributeValue.inQuotes, GivesPositive, BeginsPositive]

/-- An equality sign is not among the characters of a value that is an integer. -/
theorem not_mem_render {v : AttributeValue} {i : Int} (hv : v.text = (toString i).toList) :
  '=' ∉ v.render
  := by
  have hdigits (n : Nat) : '=' ∉ Nat.toDigits 10 n := by
    intro hmem
    exact absurd (Text.isDigit_of_mem_toDigits hmem) (by decide)
  have htext : '=' ∉ v.text := by
    rw [hv, Text.toList_toString]
    split
    · apply hdigits
    · simp [hdigits]
  cases v with
  | quoted mark text isQuote not_mem =>
    rw [AttributeValue.text] at htext
    rcases isQuote with rfl | rfl
    · simp [AttributeValue.render, htext]
    · simp [AttributeValue.render, htext]
  | braced text =>
    rw [AttributeValue.text] at htext
    simp [AttributeValue.render, htext]

/-- The line of a link with a tab order. -/
theorem line_orderLink (v : AttributeValue) :
  (orderLink v).line
    = '<' :: 'a' :: ' ' :: "tabIndex".toList ++ '=' :: (v.render ++ ['>'])
  := by
  have hline : (orderLink v).line
      = '<' :: 'a' :: ' ' :: (((orderAttribute v).render ++ []) ++ ['>']) := rfl
  rw [hline, List.append_nil]
  rfl

/-- The one place of a link at which it may have a positive tab order is that of its attribute. -/
theorem positiveOrderAt_orderLink_iff {v : AttributeValue} {i : Int}
    (hv : v.text = (toString i).toList) {n : Nat} :
  PositiveOrderAt (orderLink v).line n ↔ n = 3 ∧ v.inQuotes = true ∧ 0 < i
  := by
  rw [← givesPositive_render_iff hv ['>'], line_orderLink]
  constructor
  · rintro ⟨before, name, after, hline, rfl, hname, h⟩
    rw [← List.append_assoc] at hline
    -- The line has one equality sign only.
    have hleft : '=' ∉ '<' :: 'a' :: ' ' :: "tabIndex".toList := by decide
    have hright : '=' ∉ v.render ++ ['>'] := by simp [not_mem_render hv]
    obtain ⟨hkey, -, rfl⟩ := (List.append_cons_inj_of_notMem hleft hright).mp hline
    have hsplit : ['<', 'a', ' '] ++ "tabIndex".toList = before ++ name := hkey
    have hlength : "tabIndex".toList.length = name.length := by
      have := congrArg List.length hname
      rw [List.length_map, List.length_map] at this
      exact this.symm
    obtain ⟨rfl, -⟩ := List.append_inj' hsplit hlength
    exact ⟨rfl, h⟩
  · rintro ⟨rfl, h⟩
    exact ⟨['<', 'a', ' '], _, _, rfl, rfl, rfl, h⟩

/-- A tag with a positive integer in quotes as its tab order has a place of one. -/
theorem exists_positiveOrderAt {t : OpeningTag} {gap : Blanks} {v : AttributeValue} {i : Int}
    (ha : (gap, orderAttribute v) ∈ t.attributes) (hv : v.text = (toString i).toList)
    (hquoted : v.inQuotes = true) (hi : 0 < i) :
  ∃ n, PositiveOrderAt t.line n
  := by
  obtain ⟨before, after, hattributes⟩ := List.append_of_mem ha
  have hline : t.line = t.indent.chars ++ ('<' :: (t.name.chars
      ++ (TagAttribute.renderAll before ++ gap.chars)))
      ++ ("tabIndex".toList ++ '=' :: (v.render ++ (TagAttribute.renderAll after ++ t.ending))) := by
    have hrender : (orderAttribute v).render = "tabIndex".toList ++ '=' :: v.render := rfl
    simp only [OpeningTag.line, OpeningTag.text, OpeningTag.body, hattributes,
      TagAttribute.renderAll, List.flatMap_append, List.flatMap_cons, hrender, List.append_assoc,
      List.cons_append]
  exact ⟨_, _, _, _, hline, rfl, rfl, (givesPositive_render_iff hv _).mpr ⟨hquoted, hi⟩⟩

/-- The check for tab orders makes no finding on a line of a document exactly if `tabIndex=` stands
nowhere before a positive number, and else one finding at the least such place.  So it finds a link
with an integer as its tab order exactly if the integer is positive and stands in quotes, at the
name of the attribute; in braces no integer is found.  In quotes a positive integer is found in
every tag. -/
theorem foundBy_positiveOrder {check : LineCheck}
    (hcheck : keyboardNavigation.checks[0]? = some check) {d : Document} {number : Nat}
    {line : List Char} (hline : (number, line) ∈ d.numberedLines) :
  (keyboardNavigation.foundBy check d number = [] ↔ ∀ n, ¬PositiveOrderAt line n)
    ∧ (∀ n, (∃ f, keyboardNavigation.foundBy check d number = [f]
          ∧ f.location = d.location number (n + 1))
      ↔ IsLeast {n | PositiveOrderAt line n} n)
    ∧ ∀ (i : Int) (v : AttributeValue), v.text = (toString i).toList →
      (line = (orderLink v).line →
        ((∃ f, keyboardNavigation.foundBy check d number = [f]
              ∧ f.location = d.location number 4)
            ↔ v.inQuotes = true ∧ 0 < i)
          ∧ (keyboardNavigation.foundBy check d number = [] ↔ ¬(v.inQuotes = true ∧ 0 < i)))
      ∧ ∀ (t : OpeningTag) (gap : Blanks), line = t.line → (gap, orderAttribute v) ∈ t.attributes →
          v.inQuotes = true → 0 < i → ∃ f, keyboardNavigation.foundBy check d number = [f]
  := by
  have hleast := flagsLeast_positiveOrder hcheck
  have hnone : keyboardNavigation.foundBy check d number = [] ↔ ∀ n, ¬PositiveOrderAt line n := by
    rw [← hleast.not_found_iff d number line hline, hleast.none_iff line]
  have hsome : ∀ n, (∃ f, keyboardNavigation.foundBy check d number = [f]
        ∧ f.location = d.location number (n + 1)) ↔ IsLeast {n | PositiveOrderAt line n} n := by
    intro n
    rw [← hleast.found_iff d number line hline, hleast.some_iff]
  refine ⟨hnone, hsome, fun i v hv => ⟨?link, ?tag⟩⟩
  -- A link has one place at most where a tab order stands, three bytes into the line.
  case link =>
    rintro rfl
    simp only [hnone, hsome 3, positiveOrderAt_orderLink_iff hv]
    constructor
    · constructor
      · rintro ⟨⟨-, h⟩, -⟩
        exact h
      · intro h
        exact ⟨⟨rfl, h⟩, fun n hn => hn.1.ge⟩
    · constructor
      · intro h hfound
        exact h 3 ⟨rfl, hfound⟩
      · rintro h n ⟨-, hfound⟩
        exact h hfound
  case tag =>
    rintro t gap rfl ha hquoted hi
    classical
    obtain ⟨n, hn⟩ := exists_positiveOrderAt ha hv hquoted hi
    obtain ⟨f, hf, -⟩ := (hsome _).mpr (Nat.isLeast_find ⟨n, hn⟩)
    exact ⟨f, hf⟩

/-- A document of three links: the tab order of the first one is positive and stands in quotes, that
of the second one is zero, and that of the third one is positive and stands in braces. -/
def linkPage : Document :=
  ⟨"App.tsx", ["<a tabIndex=\"12\">".toList, "<a tabIndex='0'>".toList,
    "<a tabIndex=\x7b12\x7d>".toList]⟩

/-- Only the first link is flagged. -/
theorem foundBy_positiveOrder_linkPage :
  ∃ check, keyboardNavigation.checks[0]? = some check
    ∧ (∃ f, keyboardNavigation.foundBy check linkPage 1 = [f] ∧ f.location = ⟨"App.tsx", 1, 4⟩)
    ∧ keyboardNavigation.foundBy check linkPage 2 = []
    ∧ keyboardNavigation.foundBy check linkPage 3 = []
  := by
  obtain ⟨check, hcheck⟩ : ∃ check, keyboardNavigation.checks[0]? = some check := ⟨_, rfl⟩
  have hfirst : (1, linkPage.rawLines[0]) ∈ linkPage.numberedLines := by decide +kernel
  have hsecond : (2, linkPage.rawLines[1]) ∈ linkPage.numberedLines := by decide +kernel
  have hthird : (3, linkPage.rawLines[2]) ∈ linkPage.numberedLines := by decide +kernel
  have hdouble : linkPage.rawLines[0]
      = (orderLink (.quoted '"' "12".toList (by decide) (by decide))).line := by decide +kernel
  have hsingle : linkPage.rawLines[1]
      = (orderLink (.quoted '\'' "0".toList (by decide) (by decide))).line := by decide +kernel
  have hbraced : linkPage.rawLines[2] = (orderLink (.braced "12".toList)).line := by decide +kernel
  refine ⟨check, hcheck, ?_, ?_, ?_⟩
  · exact (((foundBy_positiveOrder hcheck hfirst).2.2 12 _ (by decide)).1 hdouble).1.mpr
      ⟨rfl, by decide⟩
  · exact (((foundBy_positiveOrder hcheck hsecond).2.2 0 _ (by decide)).1 hsingle).2.mpr (by decide)
  · exact (((foundBy_positiveOrder hcheck hthird).2.2 12 _ (by decide)).1 hbraced).2.mpr (by decide)

/-- A link with a positive tab order in braces is not flagged. -/
theorem findings_bracedLink :
  (orderLink (.braced "2".toList)).line = "<a tabIndex=\x7b2\x7d>".toList
    ∧ (AttributeValue.braced "2".toList).text = (toString (2 : Int)).toList ∧ 0 < (2 : Int)
    ∧ keyboardNavigation.findings ⟨"App.tsx", [(orderLink (.braced "2".toList)).line]⟩ = []
  := by
  decide +kernel

end AccessAudit.Rule
