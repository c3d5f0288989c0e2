import AccessAudit.Markup.Grammar.Parser
import AccessAudit.Proofs.Grammar.Elements

/-!
# Reading what was written

The elements that are read from the source of a written element are those that it lists, if the
parser gives the trees of written markup.  The grammars of this library make up such a parser.
-/

namespace AccessAudit.Markup

/-! ### The characters of written elements -/

namespace Written

open Text Grammar

/-- The characters that occur in written elements. -/
def alphabet : List Char :=
  [' ', '\n', '-', '_', '.', '/', ':', '#', '"', '=', '<', '>', '\x7b', '\x7d'] ++ alphanums

theorem mem_alphabet {c : Char} (h : c.isAlphanum = true) :
  c ∈ alphabet
  := List.mem_append_right _ (mem_alphanums h)

theorem Word.chars_subset (n : Word) :
  n.chars ⊆ alphabet
  := by
  rw [Word.chars, List.cons_subset]
  refine ⟨mem_alphabet (isAlphanum_of_isAlpha n.isAlpha_first), ?_⟩
  intro c hc
  apply mem_alphabet (n.isAlphanum_others c hc)

/-- The characters of a word with hyphens are in the alphabet. -/
theorem HyphenedWord.chars_subset (n : HyphenedWord) :
  n.chars ⊆ alphabet
  := by
  rw [HyphenedWord.chars, List.cons_subset]
  refine ⟨mem_alphabet (isAlphanum_of_isAlpha n.isAlpha_first), ?_⟩
  intro c hc
  obtain h | rfl := n.isPart_others c hc
  · apply mem_alphabet h
  · decide

/-- The characters of a text in quotes are in the alphabet. -/
theorem Quoted.inQuotes_subset (q : Quoted) :
  inQuotes q.chars ⊆ alphabet
  := by
  have hsigns : [' ', '-', '_', '.', '/', ':', '#'] ⊆ alphabet := by decide
  rw [inQuotes, List.cons_subset, List.append_subset]
  refine ⟨by decide, ?_, by decide⟩
  intro c hc
  obtain h | h := q.isPart c hc
  · apply mem_alphabet h
  · apply hsigns h

theorem inBraces_subset {w : List Char} (hw : w ⊆ alphabet) :
  inBraces w ⊆ alphabet
  := by
  rw [inBraces, List.cons_subset, List.append_subset]
  exact ⟨by decide, hw, by decide⟩

/-- The characters of an attribute are in the alphabet. -/
theorem Attribute.render_subset (a : Attribute) :
  a.render ⊆ alphabet
  := by
  have hnamed (name : AttributeName) {w : List Char} (hw : w ⊆ alphabet) :
      name.chars ++ '=' :: w ⊆ alphabet := by
    rw [List.append_subset, List.cons_subset]
    exact ⟨name.chars_subset, by decide, hw⟩
  cases a with
  | bare name => apply name.chars_subset
  | quoted name value => apply hnamed name value.inQuotes_subset
  | braced name value => apply hnamed name (inBraces_subset value.inQuotes_subset)
  | flag name value =>
    apply hnamed name
    cases value <;> decide
  | ofVariable name value => apply hnamed name (inBraces_subset value.chars_subset)
  | spread value =>
    apply inBraces_subset
    simp only [List.cons_subset]
    exact ⟨by decide, by decide, by decide, value.chars_subset⟩

/-- The characters of a tag up to its end are in the alphabet. -/
theorem tagHead_subset (tag : Name) (attributes : List Attribute) :
  tagHead tag attributes ⊆ alphabet
  := by
  rw [tagHead, List.cons_subset, List.append_subset]
  refine ⟨by decide, tag.chars_subset, ?_⟩
  intro c hc
  obtain ⟨a, -, hc⟩ := List.mem_flatMap.mp hc
  cases hc with
  | head => decide
  | tail _ hc => apply a.render_subset hc

mutual

/-- The characters of a written element are in the alphabet. -/
theorem render_subset : (t : Written) →
  t.render ⊆ alphabet
  | .void tag attributes => by
    rw [render, List.append_subset]
    exact ⟨tagHead_subset tag attributes, by decide⟩
  | .full tag attributes content => by
    rw [render, closingTag]
    simp only [List.append_subset, List.cons_subset]
    refine ⟨tagHead_subset tag attributes, by decide, ?_, by decide, by decide, ?_⟩
    · apply content.render_subset
    · exact ⟨tag.chars_subset, by decide, List.nil_subset _⟩

/-- The characters of written content are in the alphabet. -/
theorem Content.render_subset : (content : Content) →
  content.render ⊆ alphabet
  | .nil => List.nil_subset _
  | .text t rest => by
    rw [Content.render, List.append_subset]
    refine ⟨?_, rest.render_subset⟩
    intro c hc
    obtain h | rfl | rfl := t.isPart c hc
    · apply mem_alphabet h
    · decide
    · decide
  | .child e rest => by
    rw [Content.render, List.append_subset]
    exact ⟨e.render_subset, rest.render_subset⟩

end

end Written

/-! ### Written elements as values -/

namespace Grammar

open Written

variable {d : Dialect} {r : List Char} {l : Nat}

/-- The rules of parameters, which are read only where a parenthesis stands ahead. -/
def Symbol.needsParenthesis : Symbol → Bool
  | .signature | .parameters => true
  | _ => false

theorem needs_of_needsParenthesis (name : Symbol) (h : name.needsParenthesis = true) :
  (rules d name).needs '(' Symbol.needsParenthesis = true
  := by
  cases name <;> first | (cases d <;> rfl) | cases h

/-- A written element is no arrow function.  One may begin with `<` for its type parameters, but a
parenthesis would have to follow them. -/
theorem bars_arrow_markup (t : Written) :
  Bars (rules d) (.rule .arrow) (t.render ++ [';', '\n'])
  := by
  have hrule : rules d .arrow = arrowRule := by cases d <;> rfl
  have hsignature : Bars (rules d) (.rule .signature) (t.render ++ [';', '\n']) := by
    intro s hs
    apply (ranking d).rejects rfl
    intro u hu
    have hparenthesis := hu.mem_of_needs needs_of_needsParenthesis rfl
    rw [hs, List.mem_append] at hparenthesis
    cases hparenthesis with
    | inl h => exact absurd (t.render_subset h) (by decide)
    | inr h => exact absurd h (by decide)
  obtain ⟨c, s, hrender, -⟩ := exists_render_eq t
  rw [hrender] at hsignature ⊢
  let x := Ahead.cons '<' ((c :: s) ++ [';', '\n']) (by decide) (by decide)
  apply Bars.rule hrule
  apply Bars.seqRight (v := []) fun l => ⟨[], .noGap x.settled⟩
  apply Bars.scope
  apply Bars.seqLeft
  apply Bars.seqLeft
  apply Bars.alt
  · exact x.bars rfl
  · apply Bars.seqLeft
    exact (x.bars rfl).alt hsignature

/-- A written element that is read as markup is read as a value after a blank. -/
theorem yields_assignment_markup (t : Written) {u : Tree}
    (h : Yields (rules d) (.rule .markup) t.render [';', '\n'] l [u]) :
  Yields (rules d) (.rule .assignment) (' ' :: t.render) [';', '\n'] l [u]
  := by
  have harrow := bars_arrow_markup (d := d) t
  obtain ⟨c, s, hrender, -⟩ := exists_render_eq t
  rw [hrender] at h harrow ⊢
  let x := Ahead.cons '<' ((c :: s) ++ [';', '\n']) (by decide) (by decide)
  exact yields_alternative (v := [' ']) rfl (by decide) x (by cases d <;> rfl) rfl harrow rfl 1
    (x.bars_of_mem (by cases d <;> rfl)) nofun h.altLeft

/-! ### The declaration of a constant -/

/-- The name of the constant. -/
def constantName : Word where
  first := 'x'
  others := []
  isAlpha_first := by decide
  isAlphanum_others := nofun

theorem yields_typedOpt {e : Expr Symbol} (he : Bars (rules d) e r) :
  Yields (rules d) (typedOpt d e) [] r l []
  := by
  cases d with
  | tsx => exact .optNone he
  | jsx => exact .empty

theorem bars_token_blank {s : String}
    (hs : (Ahead.cons '=' r (by decide) (by decide)).excludes d (.text s.toList) = true) :
  Bars (rules d) (.token s) (' ' :: '=' :: r)
  := by
  let x := Ahead.cons '=' r (by decide) (by decide)
  exact Bars.afterBlanks (w := [' ']) rfl x.settled (x.bars hs)

/-- The name of a constant and its value are read as a declarator. -/
theorem yields_declarator (t : Written) {u : Tree}
    (h : Yields (rules d) (.rule .markup) t.render [';', '\n'] l [u])
    (htree : ElementTree declarationHead t u) :
  ∃ v, Yields (rules d) (declarator d) (" x = ".toList ++ t.render) [';', '\n'] l [v]
    ∧ ∃ name value : Tree, name.IsLeaf .identifier ['x'] ∧ ElementTree declarationHead t value
      ∧ v.IsNode [name, value] .declarator
  := by
  let rest := (' ' :: t.render) ++ [';', '\n']
  let x := Ahead.cons '=' rest (by decide) (by decide)
  have hends : NameEnds (' ' :: '=' :: rest) := by
    rintro c ⟨⟩
    decide
  have hname : Yields (rules d) (.role .name (.choice [Expr.anyName, .rule .pattern])) ['x']
      (' ' :: '=' :: rest) l _ := (yields_anyName constantName hends).altLeft.role
  have hmark : Yields (rules d) (typedOpt d (.token "!")) [] (' ' :: '=' :: rest) l [] :=
    yields_typedOpt (bars_token_blank rfl)
  have htype : Yields (rules d) (typedOpt d typeAnnotation) [] (' ' :: '=' :: rest) l [] :=
    yields_typedOpt (bars_token_blank rfl).seqLeft
  have hequals : Yields (rules d) (.token "=") [' ', '='] rest l [] :=
    Yields.afterBlanks (v := [' ']) rfl x.settled .text
  have hvalue : Yields (rules d) (.role .value (.rule .assignment)) (' ' :: t.render)
      [';', '\n'] l _ := (yields_assignment_markup t h).role
  have hinOrder := Yields.seq (v := ['x']) (l := l) hname
    (hmark.after (htype.after (hequals.seq hvalue).optSome))
  have hdeclarator := (hinOrder.node .declarator).afterBlanks (v := [' ']) rfl
    (settled_cons (by decide) (by decide))
  have hleaf : ((leafNode .identifier ['x'] l).withRole .name).IsLeaf .identifier ['x'] :=
    ⟨rfl, rfl, .node nofun nofun nofun⟩
  have helement : ElementTree declarationHead t
      (if u.kind == .comment then u else u.withRole .value) := by
    split
    · apply htree
    · apply htree.withRole
  exact ⟨_, hdeclarator, _, _, hleaf, helement, ⟨rfl, rfl⟩⟩

/-- The declaration of a constant is read as a node around its declarator. -/
theorem yields_declaration (t : Written) {v : Tree}
    (hv : Yields (rules d) (declarator d) (" x = ".toList ++ t.render) [';', '\n'] l [v]) :
  ∃ u, Yields (rules d) (.rule .declaration) (declarationHead ++ t.render ++ [';']) ['\n'] l [u]
    ∧ u.IsNode [v] .lexicalDeclaration
  := by
  have hrule : rules d .declaration = declarationRule d := by cases d <;> rfl
  let rest := ("x = ".toList ++ t.render ++ [';']) ++ ['\n']
  let x := Ahead.cons 'c' ("onst".toList ++ ' ' :: rest) (by decide) (by decide)
  let y := Ahead.cons ';' ['\n'] (by decide) (by decide)
  have hend : Bars (rules d) (.char isWordPart) (' ' :: rest) := by
    intro s hs
    rw [rejects_char_iff, hs]
    rintro c ⟨⟩
    decide
  have hconst : Yields (rules d) (.keyword "const") "const".toList (' ' :: rest) l [] :=
    (Yields.text.before (.unless hend)).afterGap x.settled
  have hword : Yields (rules d) (.choice [.keyword "const",
      .inOrder [.keyword "let", .unless (.test (endsStatement d true))]]) "const".toList
      (' ' :: rest) l [] := hconst.altLeft
  have hnames : Yields (rules d) (.commaSep (declarator d)) (" x = ".toList ++ t.render)
      [';', '\n'] l [v] := hv.before (.starStop (y.bars (by cases d <;> rfl)))
  have htoken (l : Nat) : Yields (rules d) (.token ";") [';'] ['\n'] l [] :=
    Yields.text.afterGap y.settled
  have hending (l : Nat) : Yields (rules d) (semicolon d true) [';'] ['\n'] l [] :=
    (htoken l).altLeft
  have hinOrder := Yields.seq (v := "const".toList) (l := l) hword (hnames.seq (hending _))
  have hphrase : Yields (rules d) _ (declarationHead ++ t.render ++ [';']) ['\n'] l _ :=
    (hinOrder.node .lexicalDeclaration).afterGap x.settled
  exact ⟨_, .rule hrule (.altRight (x.bars rfl) hphrase.altLeft.altLeft), ⟨rfl, rfl⟩⟩

/-! ### Sources with one declaration -/

/-- A declaration that begins with `c` is read as a statement. -/
theorem yields_statement {w : List Char} (hw : w.head? = some 'c') {ts : List Tree}
    (h : Yields (rules d) (.rule .declaration) w r l ts) :
  Yields (rules d) (.rule .statement) w r l ts
  := by
  have hrule : rules d .statement = statementRule d := by cases d <;> rfl
  obtain ⟨v, rfl⟩ := List.head?_eq_some_iff.mp hw
  let x := Ahead.cons 'c' (v ++ r) (by decide) (by decide)
  have hnoComment : Yields (rules d) (.star (.inOrder [.pageComment ["<!--", "-->"], .gap])) []
      (('c' :: v) ++ r) l [] := .starStop (x.bars rfl)
  apply Yields.rule hrule
  apply Yields.afterGap (w := 'c' :: v) x.settled
  apply hnoComment.after
  apply Yields.altRight (x.bars (by cases d <;> rfl))
  apply Yields.altRight (x.bars rfl)
  apply h.altLeft

/-- One statement that begins with `c` and the end of its line are read as a program. -/
theorem yields_program {w : List Char} (hw : w.head? = some 'c') {ts : List Tree}
    (h : Yields (rules d) (.rule .statement) w ['\n'] l ts) :
  Yields (rules d) (.rule .program) (w ++ ['\n']) [] l ts
  := by
  have hprogram : rules d .program = programRule := by cases d <;> rfl
  have hstatement : rules d .statement = statementRule d := by cases d <;> rfl
  obtain ⟨v, rfl⟩ := List.head?_eq_some_iff.mp hw
  let x := Ahead.cons 'c' ((v ++ ['\n']) ++ []) (by decide) (by decide)
  have hnoLine : Yields (rules d)
      (.opt (.inOrder [.text ['#', '!'], .span fun c => !endsLine c])) []
      ((('c' :: v) ++ ['\n']) ++ []) l [] := .optNone (x.bars rfl)
  have hnoMore : Bars (rules d) (.rule .statement) ['\n'] := by
    apply Bars.rule hstatement
    apply Bars.afterBlanks (w := ['\n']) rfl settled_nil
    exact Ahead.nil.bars (by cases d <;> rfl)
  have hstatements := h.starOnce (List.cons_ne_nil 'c' v) hnoMore
  have hend (l : Nat) : Yields (rules d)
      (.inOrder [.gap, .star (.inOrder [.pageComment ["<!--", "-->"], .gap]), .test List.isEmpty])
      ['\n'] [] l [] := by
    apply Yields.afterBlanks (v := ['\n']) rfl settled_nil
    apply Yields.after
    · exact .starStop (Ahead.nil.bars rfl)
    · exact .test rfl
  exact .rule hprogram (hnoLine.after (hstatements.seq (hend _)))

/-- What a source is read as does not depend on the number of steps allowed. -/
theorem parse?_of_accepts {source : List Char} {s : State}
    (h : Accepts (rules d) (.node .other (.rule .program)) (.start source) s) :
  parse? d source = s.nodes.head?
  := by
  obtain ⟨n, hn⟩ := h
  have hrun : run (rules d) (stepLimit source) (.node .other (.rule .program)) (.start source)
      = .ok s := by
    rw [← run_mono (run_stepLimit_ne_exhausted d source) (Nat.le_max_right n (stepLimit source)),
      run_mono (by rw [hn]; nofun) (Nat.le_max_left n (stepLimit source)), hn]
  rw [parse?, hrun]

theorem parse?_of_yields {w : List Char} {ts : List Tree}
    (h : Yields (rules d) (.rule .program) w [] 1 ts) :
  parse? d w = some (.node .other .plain 1 (1 + w.count '\n') "" ts.reverse)
  := by
  have haccepts := h.node .other 0 (.start w) []
  rw [List.append_nil] at haccepts
  apply parse?_of_accepts haccepts

/-- The grammars read the declaration of a written element as the tree of that source. -/
theorem parser_readsWritten :
  parser.ReadsWritten
  := by
  intro d t
  have hline : declarationHead.count '\n' + 1 = 1 := by decide
  have hhead : (declarationHead ++ t.render ++ [';']).head? = some 'c' := rfl
  have hsource : t.source.toList = (declarationHead ++ t.render ++ [';']) ++ ['\n'] := by
    rw [source, String.toList_ofList, List.append_assoc _ [';']]
    rfl
  obtain ⟨u, hu, htree⟩ := yields_markup d [';', '\n'] declarationHead t
  rw [hline] at hu
  obtain ⟨v, hv, name, value, hname, hvalue, hdeclarator⟩ := yields_declarator t hu htree
  obtain ⟨w, hw, hdeclaration⟩ := yields_declaration t hv
  have hprogram := yields_program hhead (yields_statement hhead hw)
  have hparse := parse?_of_yields hprogram
  rw [← hsource] at hparse
  exact ⟨_, parse_eq_ok_iff.mpr hparse, .intro hname hvalue hdeclarator hdeclaration ⟨rfl, rfl⟩⟩

end Grammar

/-! ### Pages of written elements -/

namespace Written

/-- A written element that is the value of a constant is read, in both dialects, as the elements
that it lists: each one before those inside it, with its name in small letters, the line of its `<`,
and the last value of each attribute. -/
theorem elements_read_source {parser : Parser} (hparser : parser.ReadsWritten) (d : Dialect)
    (path : String) (t : Written) :
  (Page.read parser d path t.source).map Page.elements = .ok (t.listing declarationHead)
  := by
  obtain ⟨u, hparse, htree⟩ := hparser d t
  rw [Page.read, hparse]
  exact congrArg Except.ok htree.elements_eq

/-- A list with an item on the second line and with one attribute twice. -/
theorem elements_read_source_list :
  Grammar.parser.ReadsWritten ∧ ∃ t : Written,
    t.source = "const x = <ul id=\"a\" id=\x7b\"b\"\x7d>\n <li \x7b...p\x7d /></ul>;\n"
    ∧ (Page.read Grammar.parser .tsx "a.tsx" t.source).map Page.elements
      = .ok [⟨"ul", 1, [("id", .string "b")], true, false⟩,
          ⟨"li", 2, [(spreadName, .boolean true)], false, true⟩]
  := by
  let ul : Name := ⟨⟨'u', ['l'], rfl, List.all_eq_true.mp rfl⟩, by decide⟩
  let li : Name := ⟨⟨'l', ['i'], rfl, List.all_eq_true.mp rfl⟩, by decide⟩
  let p : Variable := ⟨⟨⟨'p', [], rfl, nofun⟩, by decide⟩, by decide⟩
  let id : AttributeName :=
    ⟨Word.toHyphenedWord ⟨'i', ['d'], rfl, List.all_eq_true.mp rfl⟩, by decide⟩
  let quoted (c : Char) (h : c.isAlphanum = true) : Quoted :=
    ⟨[c], by rintro d hd; cases List.mem_singleton.mp hd; exact .inl h⟩
  let item : Content := .child (.void li [.spread p]) .nil
  let list : Written :=
    .full ul [.quoted id (quoted 'a' rfl), .braced id (quoted 'b' rfl)]
      (.text ⟨['\n', ' '], by simp⟩ item)
  have h := elements_read_source Grammar.parser_readsWritten .tsx "a.tsx" list
  exact ⟨Grammar.parser_readsWritten, list, by decide +kernel, h⟩

end Written

end AccessAudit.Markup
