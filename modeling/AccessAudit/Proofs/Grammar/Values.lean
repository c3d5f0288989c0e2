import AccessAudit.Proofs.Grammar.Names

/-!
# Reading values

How the grammar reads a smallest expression that is a whole value: no operator stands before it or
after it, and it is not the head of an arrow function.  Strings, truth values and variables are such
values inside braces.
-/

namespace AccessAudit.Markup.Grammar

open Text Written

variable {d : Dialect} {w r : List Char} {l : Nat} {ts : List Tree}

/-! ### Values without operators -/

theorem settled_valueEnd {c : Char} (hc : c ∈ ['\x7d', ';']) :
  Settled (c :: r)
  := by
  rw [List.mem_cons, List.mem_singleton] at hc
  obtain rfl | rfl := hc
  · apply settled_cons (by decide) (by decide)
  · apply settled_cons (by decide) (by decide)

/-- What is ahead where a value ends: a closing brace or a semicolon. -/
def Ahead.afterValue (c : Char) (r : List Char) (hc : c ∈ ['\x7d', ';']) : Ahead where
  rest := c :: r
  firsts := ['\x7d', ';']
  absent := []
  first_mem _ hx := Option.some.inj hx ▸ hc
  word_not_mem := List.not_mem_nil
  settled := settled_valueEnd hc

/-- Whether an operand cannot begin with an operator at a place. -/
def Ahead.startsBare (d : Dialect) (x : Ahead) : Bool :=
  match operandRule d with
  | .alt _ (.alt mark (.alt yield _)) => x.excludes d mark && x.excludes d yield
  | _ => false

/-- A smallest expression that is a value is read as an operand. -/
theorem yields_operand {c : Char} (hc : c ∈ ['\x7d', ';']) (x : Ahead)
    (hx : x.startsBare d = true) (hrest : x.rest = w ++ c :: r)
    (harrow : Bars (rules d) (.rule .arrow) (w ++ c :: r))
    (hprimary : Yields (rules d) (.rule .primary) w (c :: r) l ts) :
  Yields (rules d) (.rule .operand) w (c :: r) l ts
  := by
  have hoperand : rules d .operand = operandRule d := by cases d <;> rfl
  have hpostfixed : rules d .postfixed = postfixedRule d := by cases d <;> rfl
  have hsettled : Settled (w ++ c :: r) := hrest ▸ x.settled
  change (x.excludes d _ && x.excludes d _) = true at hx
  rw [Bool.and_eq_true] at hx
  have hmark := x.bars hx.1
  have hyield := x.bars hx.2
  rw [hrest] at hmark hyield
  have hend : Bars (rules d) (.repeated (postfixOperator d)) (c :: r) := by
    apply (Ahead.afterValue c r hc).bars
    cases d <;> rfl
  apply Yields.rule hoperand
  apply Yields.altRight
  · apply Bars.seqRight (v := []) (fun l => ⟨[], .noGap hsettled⟩) harrow.seqLeft.scope
  apply Yields.altRight hmark
  apply Yields.altRight hyield
  apply Yields.rule hpostfixed
  apply (hprimary.extend .other hend).afterGap hsettled

/-- A smallest expression that is a value, after blanks, is read as an expression without commas. -/
theorem yields_assignment {v : List Char} (hv : v.all isGap = true) {c : Char}
    (hc : c ∈ ['\x7d', ';']) (x : Ahead) (hx : x.startsBare d = true)
    (hrest : x.rest = w ++ c :: r) (harrow : Bars (rules d) (.rule .arrow) (w ++ c :: r))
    (hprimary : Yields (rules d) (.rule .primary) w (c :: r) (l + v.count '\n') ts) :
  Yields (rules d) (.rule .assignment) (v ++ w) (c :: r) l ts
  := by
  have hrule : rules d .assignment = assignmentRule d := by cases d <;> rfl
  have hoperand := yields_operand hc x hx hrest harrow hprimary
  apply Yields.rule hrule
  apply Yields.afterBlanks hv (hrest ▸ x.settled)
  apply hoperand.extend .other
  apply (Ahead.afterValue c r hc).bars
  cases d <;> rfl

/-- One of the alternatives of smallest expressions, after blanks, is read as a value, where the
alternatives before it are rejected. -/
theorem yields_alternative {v : List Char} (hv : v.all isGap = true) {c : Char}
    (hc : c ∈ ['\x7d', ';']) (x : Ahead) (hx : x.startsBare d = true)
    (hrest : x.rest = w ++ c :: r) (harrow : Bars (rules d) (.rule .arrow) x.rest)
    {es : List (Expr Symbol)} (hrule : primaryRule d = .inOrder [.gap, .choice es]) (n : Nat)
    (hbars : ∀ e ∈ es.take n, Bars (rules d) e x.rest) (hes : es.drop n ≠ [])
    (he : Yields (rules d) (.choice (es.drop n)) w (c :: r) (l + v.count '\n') ts) :
  Yields (rules d) (.rule .assignment) (v ++ w) (c :: r) l ts
  := by
  have hprimary : rules d .primary = primaryRule d := by cases d <;> rfl
  rw [hrest] at harrow hbars
  apply yields_assignment hv hc x hx hrest harrow
  apply Yields.rule (hprimary.trans hrule)
  exact (Yields.skip n hbars hes he).afterGap (hrest ▸ x.settled)

/-! ### Strings -/

/-- Every quoted character is of a class that has all characters allowed in quotes. -/
theorem mem_of_quoted {p : Char → Bool}
    (hp : (alphanums ++ [' ', '-', '_', '.', '/', ':', '#']).all p = true) (q : Quoted) :
  ∀ c ∈ q.chars, p c = true
  := by
  intro c hc
  apply List.all_eq_true.mp hp
  rw [List.mem_append]
  obtain h | h := q.isPart c hc
  · exact .inl (mem_alphanums h)
  · exact .inr h

/-- A text in quotes is read as a string. -/
theorem yields_string (q : Quoted) :
  Yields (rules d) Expr.string (inQuotes q.chars) r l [leafNode .string (inQuotes q.chars) l]
  := by
  have hsettled : Settled (inQuotes q.chars ++ r) := settled_cons (by decide) (by decide)
  have hend : Bars (rules d) (.choice
      [(.char fun c => c != '"' && c != '\\' && c != '\n' && c != '\r'), Expr.escape])
      (['"'] ++ r) := (Ahead.cons '"' r (by decide) (by decide)).bars rfl
  have hchars : Yields (rules d) (.star (.choice
      [(.char fun c => c != '"' && c != '\\' && c != '\n' && c != '\r'), Expr.escape]))
      q.chars (['"'] ++ r) (l + ['"'].count '\n') [] :=
    .starChars (mem_of_quoted (by decide +kernel) q) hend
  have hquoted : Yields (rules d) (Expr.quotedBy '"') (inQuotes q.chars) r l [] :=
    Yields.seq (v := ['"']) .text (hchars.seq .text)
  apply (hquoted.altLeft.leaf .string).afterGap hsettled

/-- A text in quotes is read as a value. -/
theorem yields_assignment_string (q : Quoted) :
  Yields (rules d) (.rule .assignment) (inQuotes q.chars) ('\x7d' :: r) l
    [leafNode .string (inQuotes q.chars) l]
  := by
  let x := Ahead.cons '"' ((q.chars ++ ['"']) ++ '\x7d' :: r) (by decide) (by decide)
  have harrow : Bars (rules d) (.rule .arrow) x.rest := x.bars (by cases d <;> rfl)
  exact yields_alternative (v := []) rfl (by decide) x (by cases d <;> rfl) rfl harrow rfl 2
    (x.bars_of_mem (by cases d <;> rfl)) nofun (yields_string q).altLeft

/-! ### Words -/

theorem nameEnds_brace :
  NameEnds ('\x7d' :: r)
  := by
  rintro x ⟨⟩
  decide

theorem yields_literalWord (kind : Kind) (s : String) (hs : Settled (s.toList ++ '\x7d' :: r)) :
  Yields (rules d) (literalWord kind s) s.toList ('\x7d' :: r) l [leafNode kind s.toList l]
  := by
  have hend : Bars (rules d) (.char isWordPart) ('\x7d' :: r) :=
    (Ahead.cons '\x7d' r (by decide) (by decide)).bars rfl
  apply ((Yields.text.before (.unless hend)).leaf kind).afterGap hs

/-- A truth value is read as a value. -/
theorem yields_assignment_flag (value : Bool) :
  Yields (rules d) (.rule .assignment) (flagWord value) ('\x7d' :: r) l
    [leafNode (if value then .true else .false) (flagWord value) l]
  := by
  cases value with
  | true =>
    let x := Ahead.word ⟨'t', ['r', 'u', 'e'], rfl, List.all_eq_true.mp rfl⟩ ('\x7d' :: r)
      nameEnds_brace ['t'] (by decide) ["typeof".toList] (by decide)
    have harrow : Bars (rules d) (.rule .arrow) x.rest := x.bars (by cases d <;> rfl)
    exact yields_alternative (v := []) rfl (by decide) x (by cases d <;> rfl) rfl harrow rfl 9
      (x.bars_of_mem (by cases d <;> rfl)) nofun
      (yields_literalWord .true "true" x.settled).altLeft
  | false =>
    let x := Ahead.word ⟨'f', ['a', 'l', 's', 'e'], rfl, List.all_eq_true.mp rfl⟩ ('\x7d' :: r)
      nameEnds_brace ['f'] (by decide) ["function".toList] (by decide)
    have harrow : Bars (rules d) (.rule .arrow) x.rest := x.bars (by cases d <;> rfl)
    exact yields_alternative (v := []) rfl (by decide) x (by cases d <;> rfl) rfl harrow rfl 10
      (x.bars_of_mem (by cases d <;> rfl)) nofun
      (yields_literalWord .false "false" x.settled).altLeft

/-- A variable is neither `async` nor one of the words with which expressions begin. -/
theorem variable_not_mem (v : Variable) :
  String.ofList v.chars ∉ "async" :: expressionWords
  := by
  have hsubset : "async" :: expressionWords ⊆ keywords ++ ["async", "undefined"] := by decide
  intro h
  cases List.mem_append.mp (hsubset h) with
  | inl h => apply v.not_keyword h
  | inr h => apply v.not_special h

/-- What is ahead where a variable stands before a closing brace. -/
def Ahead.ofVariable (v : Variable) (r : List Char) : Ahead :=
  .word v.toWord ('\x7d' :: r) nameEnds_brace letters (mem_letters v.isAlpha_first)
    (("async" :: expressionWords).map String.toList) (by
      intro h
      obtain ⟨s, hs, heq⟩ := List.mem_map.mp h
      apply variable_not_mem v
      rw [← heq, String.ofList_toList]
      apply hs)

theorem yields_variable (v : Variable) :
  Yields (rules d) (.nameExcept expressionWords) v.chars ('\x7d' :: r) l
    [leafNode .identifier v.chars l]
  := yields_nameExcept v.toWord (fun h => variable_not_mem v (List.mem_cons_of_mem _ h))
    nameEnds_brace

/-- A variable is no head of an arrow function where no arrow follows. -/
theorem bars_arrow_variable (v : Variable) :
  Bars (rules d) (.rule .arrow) (v.chars ++ '\x7d' :: r)
  := by
  have hrule : rules d .arrow = arrowRule := by cases d <;> rfl
  have hhead (l : Nat) : Yields (rules d)
      (.choice [.nameExcept expressionWords, .rule .signature]) v.chars ('\x7d' :: r) l
      [leafNode .identifier v.chars l] := (yields_variable v).altLeft
  have hnoArrow : Bars (rules d) (.token "=>") ('\x7d' :: r) :=
    (Ahead.cons '\x7d' r (by decide) (by decide)).bars rfl
  apply Bars.rule hrule
  apply Bars.seqRight (v := []) fun l => ⟨[], .noGap (Ahead.ofVariable v r).settled⟩
  apply Bars.scope
  apply Bars.seqLeft
  apply Bars.seqLeft
  apply Bars.alt
  · exact (Ahead.ofVariable v r).bars rfl
  · apply Bars.seqRight (fun l => ⟨_, hhead l⟩) hnoArrow

/-- A variable is read as a value. -/
theorem yields_assignment_variable (v : Variable) :
  Yields (rules d) (.rule .assignment) v.chars ('\x7d' :: r) l [leafNode .identifier v.chars l]
  := by
  have hpattern : rules d .pattern = patternRule := by cases d <;> rfl
  let x := Ahead.ofVariable v r
  -- A variable is also read as a pattern, but no equality sign follows it.
  have hnoPattern : Bars (rules d) (.inOrder [.rule .pattern, .look (.token "=")])
      (v.chars ++ '\x7d' :: r) := by
    apply Bars.seqRight (v := v.chars)
    · intro l
      refine ⟨[leafNode .identifier v.chars l], .rule hpattern ?_⟩
      apply (yields_variable v).altLeft
    · apply Bars.look
      exact (Ahead.cons '\x7d' r (by decide) (by decide)).bars rfl
  apply yields_alternative (v := []) rfl (by decide) x (by cases d <;> rfl) rfl
    (bars_arrow_variable v) rfl 8 (x.bars_of_mem (by cases d <;> rfl)) nofun
  apply Yields.altRight hnoPattern
  apply Yields.skip 10
  · exact x.bars_of_mem (by cases d <;> rfl)
  · nofun
  · apply (yields_variable v).altLeft

end AccessAudit.Markup.Grammar
