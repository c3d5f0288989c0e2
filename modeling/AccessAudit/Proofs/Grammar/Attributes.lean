import AccessAudit.Proofs.Grammar.Values
import AccessAudit.Proofs.Markup.WrittenTrees

/-!
# Reading attributes

Every attribute is read from the text that it is written as, as a tree of that attribute.
-/

namespace AccessAudit.Markup.Grammar

open Text Written

variable {d : Dialect} {w r : List Char} {l : Nat} {ts : List Tree}

/-! ### Braces -/

theorem bars_spread (hs : Settled w) (hw : ['.', '.', '.'].isPrefixOf w = false) :
  Bars (rules d) (.rule .spread) w
  := by
  have hrule : rules d .spread = spreadRule := by cases d <;> rfl
  apply Bars.rule hrule
  apply Bars.seqRight (v := []) fun l => ⟨[], .noGap hs⟩
  apply (Bars.text hw).seqLeft.seqLeft.scope

/-- A value before a closing brace is read as expressions. -/
theorem yields_expressions (hs : Settled (w ++ '\x7d' :: r))
    (h : Yields (rules d) (.rule .assignment) w ('\x7d' :: r) l ts) :
  Yields (rules d) (.rule .expressions) w ('\x7d' :: r) l ts
  := by
  have hrule : rules d .expressions = expressionsRule := by cases d <;> rfl
  apply Yields.rule hrule
  apply Yields.afterGap hs
  apply h.extend .other
  exact (Ahead.cons '\x7d' r (by decide) (by decide)).bars rfl

/-- The node of a container. -/
def containerNode (w : List Char) (l : Nat) (t : Tree) : Tree :=
  .node .container .plain l (l + (inBraces w).count '\n') "" [t]

/-- Braces around a spread or expressions, after blanks, are read as a container. -/
theorem yields_container {v : List Char} (hv : v.all isGap = true) {t : Tree}
    (h : Yields (rules d) (.choice [.rule .spread, .rule .expressions]) w ('\x7d' :: r)
      (l + v.count '\n') [t]) :
  Yields (rules d) (.rule .container) (v ++ inBraces w) r l
    [containerNode w (l + v.count '\n') t]
  := by
  have hrule : rules d .container = containerRule := by cases d <;> rfl
  have hopen : Yields (rules d) (.text ['\x7b']) ['\x7b'] ((w ++ ['\x7d']) ++ r)
      (l + v.count '\n') [] := .text
  have hclose : Yields (rules d) (.token "\x7d") ['\x7d'] r (l + v.count '\n' + w.count '\n') [] :=
    Yields.text.afterGap (settled_cons (by decide) (by decide))
  have hs : Settled (inBraces w ++ r) := settled_cons (by decide) (by decide)
  have hnode := ((hopen.seq (h.optSome.seq hclose)).node .container).afterBlanks hv hs
  apply Yields.rule hrule
  apply hnode

theorem yields_braced {t : Tree} (hs : Settled (w ++ '\x7d' :: r))
    (hw : ['.', '.', '.'].isPrefixOf (w ++ '\x7d' :: r) = false)
    (h : Yields (rules d) (.rule .assignment) w ('\x7d' :: r) l [t]) :
  Yields (rules d) (.rule .container) (inBraces w) r l [containerNode w l t]
  := yields_container (v := []) rfl ((yields_expressions hs h).altRight (bars_spread hs hw))

/-- The node of a spread. -/
def spreadNode (v : Variable) (l : Nat) : Tree :=
  .node .spread .plain l (l + ('.' :: '.' :: '.' :: v.chars).count '\n') ""
    [leafNode .identifier v.chars l]

/-- A spread of a variable is read as a spread. -/
theorem yields_spread (v : Variable) :
  Yields (rules d) (.rule .spread) ('.' :: '.' :: '.' :: v.chars) ('\x7d' :: r) l [spreadNode v l]
  := by
  have hrule : rules d .spread = spreadRule := by cases d <;> rfl
  have hs : Settled (('.' :: '.' :: '.' :: v.chars) ++ '\x7d' :: r) :=
    settled_cons (by decide) (by decide)
  have hpoints : Yields (rules d) (.text ['.', '.', '.']) ['.', '.', '.']
      (v.chars ++ '\x7d' :: r) l [] := .text
  have hnode := ((hpoints.seq (yields_assignment_variable v)).node .spread).afterGap hs
  apply Yields.rule hrule
  apply hnode

/-! ### What follows in a tag -/

/-- Characters with which the rest of a tag goes on. -/
def tagFirsts : List Char :=
  '>' :: '/' :: '\x7b' :: letters

/-- What may follow a name or an attribute in a tag: the end of the tag, or a blank and then another
attribute or the end of an element in one tag. -/
inductive TagRest : List Char → Prop where
  | close (s : List Char) : TagRest ('>' :: s)
  | blank {s : List Char} (hs : Settled s) (hfirst : ∀ x ∈ s.head?, x ∈ tagFirsts) :
    TagRest (' ' :: s)

/-- What is ahead in a tag after blanks. -/
def Ahead.inTag (r : List Char) (hs : Settled r) (hr : ∀ x ∈ r.head?, x ∈ tagFirsts) : Ahead where
  rest := r
  firsts := tagFirsts
  absent := []
  first_mem := hr
  word_not_mem := nofun
  settled := hs

namespace TagRest

/-- In a tag, what cannot begin with any of the characters that go on with it is rejected. -/
theorem bars {e : Expr Symbol} (h : TagRest r)
    (he : ∀ r hs hr, (Ahead.inTag r hs hr).excludes d e = true) :
  Bars (rules d) (.seq .gap e) r
  := by
  cases h with
  | close r =>
    have hs : Settled ('>' :: r) := settled_cons (by decide) (by decide)
    have hr : ∀ x ∈ ('>' :: r).head?, x ∈ tagFirsts := by
      rintro x ⟨⟩
      apply List.mem_cons_self
    exact Bars.afterBlanks (w := []) rfl hs ((Ahead.inTag _ hs hr).bars (he _ hs hr))
  | blank hs hr =>
    exact Bars.afterBlanks (w := [' ']) rfl hs ((Ahead.inTag _ hs hr).bars (he _ hs hr))

theorem nameEnds (h : TagRest r) :
  NameEnds r
  := by
  cases h <;>
  · rintro x ⟨⟩
    decide

end TagRest

/-! ### Attributes with a name -/

/-- A name in a tag is read as an attribute, with what may follow the name. -/
theorem yields_named (n : HyphenedWord) (hends : NameEnds (w ++ r))
    (hcolon : Bars (rules d) (.token ":") (w ++ r))
    (hvalue : Yields (rules d) (.opt (.inOrder [.token "=", attributeValue])) w r
      (l + n.chars.count '\n') ts) :
  Yields (rules d) (.rule .attribute) (' ' :: (n.chars ++ w)) r l
    [.node .attribute .plain l (l + (n.chars ++ w).count '\n') ""
      (leafNode .identifier n.chars l :: ts.reverse)]
  := by
  have hrule : rules d .attribute = attributeRule := by cases d <;> rfl
  have hs : Settled ((n.chars ++ w) ++ r) :=
    settled_of_isAlphanum (isAlphanum_of_isAlpha n.isAlpha_first)
  have hblank : Yields (rules d) .gap [' '] ((n.chars ++ w) ++ r) l [] := .blanks rfl hs
  have hname : Yields (rules d) (.choice
      [.leaf .namespaced (.inOrder
         [.inOrder [.gap, .leaf .identifier Expr.tagWord], .token ":",
          .inOrder [.gap, .leaf .identifier Expr.tagWord]]),
       .leaf .identifier Expr.tagWord])
      n.chars (w ++ r) l [leafNode .identifier n.chars l] :=
    ((yields_tagWord n hends).leaf .identifier).altRight (bars_namespaced n hends hcolon)
  have hnode := (hname.seq hvalue).node .attribute
  rw [List.reverse_append] at hnode
  apply Yields.rule hrule
  apply (hblank.seq hnode).altLeft

/-- A name in a tag that no value follows is read as an attribute. -/
theorem yields_bare (n : HyphenedWord) (hr : TagRest r) :
  Yields (rules d) (.rule .attribute) (' ' :: n.chars) r l
    [.node .attribute .plain l (l + n.chars.count '\n') "" [leafNode .identifier n.chars l]]
  := by
  have hcolon : Bars (rules d) (.token ":") r := hr.bars fun _ _ _ => rfl
  have hequals : Bars (rules d) (.token "=") r := hr.bars fun _ _ _ => rfl
  have h := yields_named (w := []) (l := l) n hr.nameEnds hcolon (.optNone hequals.seqLeft)
  rw [List.append_nil] at h
  apply h

/-- A name in a tag that a value follows is read as an attribute. -/
theorem yields_valued (n : HyphenedWord) {t : Tree}
    (hvalue : Yields (rules d) attributeValue w r (l + n.chars.count '\n') [t]) :
  Yields (rules d) (.rule .attribute) (' ' :: (n.chars ++ '=' :: w)) r l
    [.node .attribute .plain l (l + (n.chars ++ '=' :: w).count '\n') ""
      [leafNode .identifier n.chars l, t]]
  := by
  have hends : NameEnds (('=' :: w) ++ r) := by
    rintro x ⟨⟩
    decide
  have hs : Settled (['='] ++ (w ++ r)) := settled_cons (by decide) (by decide)
  have hcolon : Bars (rules d) (.token ":") (('=' :: w) ++ r) :=
    (Ahead.cons '=' (w ++ r) (by decide) (by decide)).bars rfl
  have hequals : Yields (rules d) (.token "=") ['='] (w ++ r) (l + n.chars.count '\n') [] :=
    Yields.text.afterGap hs
  apply yields_named n hends hcolon (hequals.seq hvalue).optSome

/-- A text in quotes is read as the value of an attribute. -/
theorem yields_attributeValue_quoted (q : Quoted) :
  Yields (rules d) attributeValue (inQuotes q.chars) r l [leafNode .string (inQuotes q.chars) l]
  := by
  have hs : Settled (inQuotes q.chars ++ r) := settled_cons (by decide) (by decide)
  have hend : Bars (rules d) (.choice [(.char fun c => c != '"' && c != '&'), Expr.reference])
      (['"'] ++ r) := (Ahead.cons '"' r (by decide) (by decide)).bars rfl
  have hchars : Yields (rules d)
      (.star (.choice [(.char fun c => c != '"' && c != '&'), Expr.reference]))
      q.chars (['"'] ++ r) l [] :=
    .starChars (mem_of_quoted (by decide +kernel) q) hend
  have hquoted : Yields (rules d) (Expr.attributeString '"') (inQuotes q.chars) r l [] :=
    Yields.seq (v := ['"']) .text (hchars.seq .text)
  apply ((hquoted.altLeft.leaf .string).afterGap hs).altLeft

/-- A container is read as the value of an attribute. -/
theorem yields_attributeValue_braced {t : Tree}
    (h : Yields (rules d) (.rule .container) (inBraces w) r l [t]) :
  Yields (rules d) attributeValue (inBraces w) r l [t]
  := by
  have hnoString : Bars (rules d) (.inOrder [.gap, .leaf .string
      (.choice [Expr.attributeString '"', Expr.attributeString '\''])]) (inBraces w ++ r) :=
    (Ahead.cons '\x7b' ((w ++ ['\x7d']) ++ r) (by decide) (by decide)).bars rfl
  apply h.altLeft.altRight hnoString

/-! ### All attributes -/

theorem isLeaf_leafNode {kind : Kind} (hkind : kind ∈ [.string, .true, .false, .identifier, .text])
    (w : List Char) (l : Nat) :
  (leafNode kind w l).IsLeaf kind w
  := by
  have hnone : ∀ k ∈ [Kind.string, .true, .false, .identifier, .text],
      k ≠ .element ∧ k ≠ .selfClosing := by decide
  exact ⟨rfl, rfl, .node (hnone kind hkind).1 (hnone kind hkind).2 nofun⟩

/-- A name with a literal or a variable in braces is read as a node with the name and the braces. -/
theorem yields_attribute_braced (n : HyphenedWord) {kind : Kind}
    (hkind : kind ∈ [.string, .true, .false, .identifier, .text])
    (hs : Settled (w ++ '\x7d' :: r)) (hw : ['.', '.', '.'].isPrefixOf (w ++ '\x7d' :: r) = false)
    (h : ∀ l, Yields (rules d) (.rule .assignment) w ('\x7d' :: r) l [leafNode kind w l]) :
  ∃ t, Yields (rules d) (.rule .attribute) (' ' :: (n.chars ++ '=' :: inBraces w)) r l [t]
    ∧ ∃ name value braces : Tree, name.IsLeaf .identifier n.chars ∧ value.IsLeaf kind w
      ∧ braces.IsNode [value] .container ∧ t.IsNode [name, braces] .attribute
  := by
  have hbraced := yields_braced hs hw (h (l + n.chars.count '\n'))
  refine ⟨_, yields_valued n (yields_attributeValue_braced hbraced), _, _, _, ?_, ?_, ⟨rfl, rfl⟩,
    ⟨rfl, rfl⟩⟩
  · exact isLeaf_leafNode (by decide) _ _
  · exact isLeaf_leafNode hkind _ _

/-- An attribute is read as a tree of that attribute. -/
theorem yields_attribute (a : Attribute) (hr : TagRest r) :
  ∃ t, Yields (rules d) (.rule .attribute) (' ' :: a.render) r l [t] ∧ AttributeTree a t
  := by
  cases a with
  | bare n =>
    exact ⟨_, yields_bare n.toHyphenedWord hr,
      .bare (isLeaf_leafNode (by decide) _ _) ⟨rfl, rfl⟩⟩
  | quoted n q =>
    exact ⟨_, yields_valued n.toHyphenedWord (yields_attributeValue_quoted q),
      .quoted (isLeaf_leafNode (by decide) _ _) (isLeaf_leafNode (by decide) _ _) ⟨rfl, rfl⟩⟩
  | braced n q =>
    obtain ⟨t, hyields, _, _, _, hname, hvalue, hbraces, ht⟩ :=
      yields_attribute_braced (r := r) n.toHyphenedWord (by decide)
        (settled_cons (by decide) (by decide)) rfl fun l => yields_assignment_string q
    exact ⟨t, hyields, .braced hname hvalue hbraces ht⟩
  | flag n value =>
    have hs : Settled (flagWord value ++ '\x7d' :: r) := by
      cases value <;> exact settled_cons (by decide) (by decide)
    obtain ⟨t, hyields, _, _, _, hname, hvalue, hbraces, ht⟩ :=
      yields_attribute_braced n.toHyphenedWord (by cases value <;> decide) hs
        (by cases value <;> rfl) fun l => yields_assignment_flag value
    exact ⟨t, hyields, .flag hname hvalue hbraces ht⟩
  | ofVariable n v =>
    have hs : Settled (v.chars ++ '\x7d' :: r) := (Ahead.ofVariable v r).settled
    have hne : v.first ≠ '.' := by
      intro h
      have := v.isAlpha_first
      rw [h] at this
      cases this
    have hpoints : ['.', '.', '.'].isPrefixOf (v.chars ++ '\x7d' :: r) = false := by
      change ('.' == v.first && _) = false
      rw [beq_eq_false_iff_ne.mpr hne.symm, Bool.false_and]
    obtain ⟨t, hyields, _, _, _, hname, hvalue, hbraces, ht⟩ :=
      yields_attribute_braced n.toHyphenedWord (by decide) hs hpoints
        fun l => yields_assignment_variable v
    exact ⟨t, hyields, .ofVariable hname hvalue hbraces ht⟩
  -- A spread has no name, so the first alternative has to be rejected at the brace.
  | spread v =>
    have hrule : rules d .attribute = attributeRule := by cases d <;> rfl
    let w := '.' :: '.' :: '.' :: v.chars
    have hs : Settled (inBraces w ++ r) := settled_cons (by decide) (by decide)
    have hcontainer : Yields (rules d) (.rule .container) ([' '] ++ inBraces w) r l
        [containerNode w l (spreadNode v l)] :=
      yields_container rfl (yields_spread v).altLeft
    refine ⟨containerNode w l (spreadNode v l), .rule hrule ?_,
      .spread (isLeaf_leafNode (by decide) v.chars l) ⟨rfl, rfl⟩ ⟨rfl, rfl⟩⟩
    apply Yields.altRight _ hcontainer
    apply Bars.afterBlanks (w := [' ']) rfl hs
    exact (Ahead.cons '\x7b' ((w ++ ['\x7d']) ++ r) (by decide) (by decide)).bars rfl

theorem exists_render_eq_cons (a : Attribute) :
  ∃ c s, a.render = c :: s ∧ (c.isAlpha = true ∨ c = '\x7b')
  := by
  cases a with
  | bare n | quoted n _ | braced n _ | flag n _ | ofVariable n _ =>
    exact ⟨n.first, _, rfl, .inl n.isAlpha_first⟩
  | spread v => exact ⟨'\x7b', _, rfl, .inr rfl⟩

/-- The rest of a tag goes on after further attributes. -/
theorem TagRest.renderAll (h : TagRest r) (attributes : List Attribute) :
  TagRest (Attribute.renderAll attributes ++ r)
  := by
  cases attributes with
  | nil => apply h
  | cons a attributes =>
    obtain ⟨c, s, hrender, hc⟩ := exists_render_eq_cons a
    have heq : Attribute.renderAll (a :: attributes) ++ r
        = ' ' :: c :: (s ++ (Attribute.renderAll attributes ++ r)) := by
      rw [Attribute.renderAll, List.flatMap_cons, hrender, List.append_assoc]
      rfl
    rw [heq]
    obtain hletter | rfl := hc
    · refine .blank (settled_of_isAlphanum (isAlphanum_of_isAlpha hletter)) ?_
      rintro x ⟨⟩
      apply List.mem_append_right ['>', '/', '\x7b'] (mem_letters hletter)
    · refine .blank (settled_cons (by decide) (by decide)) ?_
      rintro x ⟨⟩
      decide

/-- Attributes are read one by one as their trees. -/
theorem yields_attributes (attributes : List Attribute) (hr : TagRest r)
    (hend : Bars (rules d) (.rule .attribute) r) :
  ∃ ts, Yields (rules d) (.star (.rule .attribute)) (Attribute.renderAll attributes) r l ts
    ∧ List.Forall₂ AttributeTree attributes ts.reverse
  := by
  induction attributes generalizing l with
  | nil => exact ⟨[], .starStop hend, .nil⟩
  | cons a attributes ih =>
    obtain ⟨t, ht, htree⟩ := yields_attribute (d := d) (l := l) a (hr.renderAll attributes)
    obtain ⟨ts, hts, htrees⟩ := ih (l := l + (' ' :: a.render).count '\n')
    refine ⟨ts ++ [t], ht.starNext (List.cons_ne_nil _ _) hts, ?_⟩
    rw [List.reverse_append, List.reverse_singleton, List.singleton_append]
    exact .cons htree htrees

end AccessAudit.Markup.Grammar
