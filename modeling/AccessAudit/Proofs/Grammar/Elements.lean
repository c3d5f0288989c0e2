import AccessAudit.Proofs.Grammar.Attributes

/-!
# Reading elements

Every written element is read as a tree of that element.  Text between tags is read up to the next
tag, so that several texts without a tag between them are read as one.
-/

namespace AccessAudit.Markup.Grammar

open Text Written

variable {d : Dialect} {w r : List Char} {l : Nat} {us : List Tree}

/-! ### Heads of tags -/

/-- The node of the name of a tag. -/
def nameNode (tag : Name) (l : Nat) : Tree :=
  (leafNode .identifier tag.chars l).withRole .name

theorem isLeaf_nameNode (tag : Name) (l : Nat) :
  (nameNode tag l).IsLeaf .identifier tag.chars
  := ⟨rfl, rfl, .node nofun nofun nofun⟩

/-- The name and the attributes of a tag are read as its name and the trees of the attributes. -/
theorem yields_tagHead (tag : Name) (attributes : List Attribute) (hr : TagRest r)
    (hend : Bars (rules d) (.rule .attribute) r) :
  ∃ ts, Yields (rules d) (Grammar.tagHead d) (tag.chars ++ Attribute.renderAll attributes) r l
      (ts.reverse ++ [nameNode tag l])
    ∧ List.Forall₂ AttributeTree attributes ts
  := by
  have hrest := hr.renderAll attributes
  have hcolon : Bars (rules d) (.token ":") (Attribute.renderAll attributes ++ r) :=
    hrest.bars fun _ _ _ => rfl
  have hpoint : Bars (rules d) (.token ".") (Attribute.renderAll attributes ++ r) :=
    hrest.bars fun _ _ _ => rfl
  have hname : Yields (rules d) (.role .name (.rule .tagName)) tag.chars
      (Attribute.renderAll attributes ++ r) l [nameNode tag l] :=
    (yields_tagName tag.toWord hrest.nameEnds hcolon hpoint).role
  have hnoTypes (l : Nat) : Yields (rules d)
      (if d = .tsx then .opt (.rule .typeArguments) else .empty) []
      (Attribute.renderAll attributes ++ r) l [] := by
    cases d with
    | tsx => exact .optNone (.rule rfl (hrest.bars fun _ _ _ => rfl))
    | jsx => exact .empty
  obtain ⟨ts, hts, htrees⟩ :=
    yields_attributes (l := l + tag.chars.count '\n') attributes hr hend
  refine ⟨ts.reverse, ?_, htrees⟩
  rw [List.reverse_reverse]
  apply hname.seq ((hnoTypes _).after hts)

/-- A node with the name and the trees of the attributes of a tag is a tree of the tag, if it begins
on the line that the text before it has reached. -/
theorem tagTree_node {before : List Char} {tag : Name} {attributes : List Attribute}
    {ts : List Tree} (hattributes : List.Forall₂ AttributeTree attributes ts) (kind : Kind)
    (role : Role) (last : Nat) :
  TagTree before tag attributes kind
    (.node kind role (before.count '\n' + 1) last ""
      (nameNode tag (before.count '\n' + 1) :: ts))
  := .intro (isLeaf_nameNode tag _) rfl hattributes ⟨rfl, rfl⟩ rfl

/-! ### Elements in one tag -/

/-- No attribute stands at the end of an element in one tag. -/
theorem bars_attribute_void :
  Bars (rules d) (.rule .attribute) (' ' :: '/' :: '>' :: r)
  := by
  have hattribute : rules d .attribute = attributeRule := by cases d <;> rfl
  have hcontainer : rules d .container = containerRule := by cases d <;> rfl
  let x := Ahead.slash '>' r (by decide) (by decide)
  apply Bars.rule hattribute
  apply Bars.alt
  · exact Bars.afterBlanks (w := [' ']) rfl x.settled (x.bars rfl)
  · apply Bars.rule hcontainer
    exact Bars.afterBlanks (w := [' ']) rfl x.settled (x.bars rfl)

theorem tagRest_void :
  TagRest (' ' :: '/' :: '>' :: r)
  := by
  refine .blank (settled_slash (by decide) (by decide)) ?_
  rintro x ⟨⟩
  decide

/-- A written element in one tag is read as a tree of that element. -/
theorem yields_void (before : List Char) (tag : Name) (attributes : List Attribute) :
  ∃ t, Yields (rules d) (.rule .markup) (render (.void tag attributes)) r (before.count '\n' + 1) [t]
    ∧ ElementTree before (.void tag attributes) t
  := by
  have hrule : rules d .markup = markupRule d := by cases d <;> rfl
  let l := before.count '\n' + 1
  obtain ⟨ts, hhead, htrees⟩ := yields_tagHead (d := d) (l := l) tag attributes
    (tagRest_void (r := r)) bars_attribute_void
  have hopen : Yields (rules d) (.text ['<']) ['<']
      (((tag.chars ++ Attribute.renderAll attributes) ++ [' ', '/', '>']) ++ r) l [] := .text
  have hend : Yields (rules d) (.token "/>") [' ', '/', '>'] r
      (l + (tag.chars ++ Attribute.renderAll attributes).count '\n') [] :=
    Yields.afterBlanks (v := [' ']) rfl (settled_slash (by decide) (by decide)) .text
  have hbuild : Builds (rules d) _ _ r l _ :=
    .after hopen (.altLeft (b := elementTail)
      (.after hhead (.altLeft (b := elementTail) (.thenClose hend .selfClosing .plain))))
  have hmarkup := hbuild.scope.afterGap (settled_cons (by decide) (by decide))
  simp only [List.nil_append, List.append_nil, List.reverse_append, List.reverse_reverse,
    List.reverse_singleton, List.singleton_append] at hmarkup
  exact ⟨_, .rule hrule hmarkup, .void (tagTree_node htrees .selfClosing .plain _)⟩

/-! ### Elements with content -/

theorem bars_tagEnd {e : Expr Symbol}
    (he : (Ahead.cons '>' r (by decide) (by decide)).excludes d e = true) :
  Bars (rules d) e ('>' :: r)
  := (Ahead.cons '>' r (by decide) (by decide)).bars he

/-- A closing tag is read as a closing tag. -/
theorem yields_closingTag (tag : Name) :
  ∃ t, Yields (rules d)
      (.node .closingTag (.inOrder [.text ['<', '/'], .opt (.rule .tagName), .token ">"]))
      (closingTag tag) r l [t]
    ∧ t.kind = .closingTag ∧ t.Bare
  := by
  have hname : Yields (rules d) (.rule .tagName) tag.chars ('>' :: r) l
      [leafNode .identifier tag.chars l] :=
    yields_tagName tag.toWord (TagRest.close r).nameEnds (bars_tagEnd rfl) (bars_tagEnd rfl)
  have hend : Yields (rules d) (.token ">") ['>'] r (l + tag.chars.count '\n') [] :=
    Yields.text.afterGap (settled_cons (by decide) (by decide))
  have hopen : Yields (rules d) (.text ['<', '/']) ['<', '/'] ((tag.chars ++ ['>']) ++ r) l [] :=
    .text
  have hleaf : (leafNode .identifier tag.chars l).IsLeaf .identifier tag.chars :=
    isLeaf_leafNode (by decide) tag.chars l
  exact ⟨_, (hopen.seq (hname.optSome.seq hend)).node .closingTag, rfl,
    .node nofun nofun (by simpa using hleaf.bare)⟩

/-- No child of an element begins at a closing tag. -/
theorem bars_child_closingTag (tag : Name) :
  Bars (rules d) child (closingTag tag ++ r)
  := by
  have hrule : rules d .markup = markupRule d := by cases d <;> rfl
  have hletter := isAlphanum_of_isAlpha tag.isAlpha_first
  have hstar : tag.first ≠ '*' := by
    intro h
    rw [h] at hletter
    cases hletter
  let s := (tag.others ++ ['>']) ++ r
  let x := Ahead.cons '<' ('/' :: tag.first :: s) (by decide) (by decide)
  let y := Ahead.slash tag.first s (ne_slash_of_isAlphanum hletter) hstar
  apply Bars.alt (x.bars rfl)
  apply Bars.alt (x.bars rfl)
  apply Bars.alt
  · exact (Bars.text rfl).seqLeft.seqLeft.scope
  apply Bars.alt
  · -- A slash after the `<` begins neither the head of a tag nor the end of one without a name.
    apply Bars.rule hrule
    apply Bars.seqRight (v := []) fun l => ⟨[], .noGap x.settled⟩
    apply Bars.scope
    apply Bars.seqRight (v := ['<']) fun l => ⟨[], .text⟩
    exact (y.bars (by cases d <;> rfl)).alt (y.bars (by cases d <;> rfl))
  · exact x.bars (by cases d <;> rfl)

/-- The line after a tag that stands after some text. -/
theorem line_after_tag (tag : Name) (attributes : List Attribute) (before : List Char) :
  before.count '\n' + 1 + (tag.chars ++ Attribute.renderAll attributes).count '\n'
    = (before ++ Written.tagHead tag attributes ++ ['>']).count '\n' + 1
  := by
  have htag : (Written.tagHead tag attributes).count '\n'
      = (tag.chars ++ Attribute.renderAll attributes).count '\n' :=
    List.count_cons_of_ne (by decide)
  have hend : ['>'].count '\n' = 0 := by decide
  have hall : (before ++ Written.tagHead tag attributes ++ ['>']).count '\n'
      = before.count '\n' + (Written.tagHead tag attributes).count '\n' + ['>'].count '\n' := by
    rw [List.count_append, List.count_append]
  rw [hall, htag, hend]
  omega

/-- A written element with content is read as a tree of that element, if the content is read as
trees of it. -/
theorem yields_full (before : List Char) (tag : Name) (attributes : List Attribute)
    {content : Content} (hcontent : Yields (rules d) (.star child) content.render
      (closingTag tag ++ r)
      ((before ++ Written.tagHead tag attributes ++ ['>']).count '\n' + 1) us)
    (htrees : ContentTrees (before ++ Written.tagHead tag attributes ++ ['>']) [] content
      us.reverse) :
  ∃ t, Yields (rules d) (.rule .markup) (render (.full tag attributes content)) r
      (before.count '\n' + 1) [t]
    ∧ ElementTree before (.full tag attributes content) t
  := by
  have hrule : rules d .markup = markupRule d := by cases d <;> rfl
  let rest := content.render ++ closingTag tag
  let l := before.count '\n' + 1
  let line := l + (tag.chars ++ Attribute.renderAll attributes).count '\n'
  rw [← line_after_tag] at hcontent
  obtain ⟨ts, hhead, hattributes⟩ := yields_tagHead (d := d) (l := l) tag attributes
    (.close (rest ++ r)) (bars_tagEnd (by cases d <;> rfl))
  obtain ⟨closing, hclosing, hkind, hbare⟩ :=
    yields_closingTag (d := d) (r := r) (l := line + content.render.count '\n') tag
  have hopen : Yields (rules d) (.text ['<']) ['<']
      (((tag.chars ++ Attribute.renderAll attributes) ++ '>' :: rest) ++ r) l [] := .text
  have hend : Yields (rules d) (.token ">") ['>'] (rest ++ r) line [] :=
    Yields.text.afterGap (settled_cons (by decide) (by decide))
  have htail : Builds (rules d) elementTail ('>' :: rest) r line _ :=
    .after hend (.seq (v := []) (.close .openingTag .openTag)
      (.after hcontent (.thenClose hclosing .element .plain)))
  have hnotVoid : Bars (rules d) (.inOrder [.token "/>", .close .selfClosing .plain false])
      (('>' :: rest) ++ r) := bars_tagEnd rfl
  have hbuild : Builds (rules d) _ _ r l _ :=
    .after hopen (.altLeft (b := elementTail) (.after hhead (.altRight hnotVoid htail)))
  have hmarkup := hbuild.scope.afterGap (settled_cons (by decide) (by decide))
  simp only [List.nil_append, List.append_nil, List.reverse_cons, List.reverse_append,
    List.reverse_reverse, List.reverse_nil, List.cons_append] at hmarkup
  exact ⟨_, .rule hrule hmarkup, .full (tagTree_node hattributes .openingTag .openTag line) rfl
    htrees hkind hbare ⟨rfl, rfl⟩⟩

/-! ### Content -/

/-- Text is read as its trees, up to the next tag. -/
theorem yields_text {p : List Char} (hp : ∀ c ∈ p, isTextChar c = true)
    (hw : ∀ x ∈ (w ++ r).head?, x = '<')
    (h : Yields (rules d) (.star child) w r (l + p.count '\n') us) :
  ∃ ts, Yields (rules d) (.star child) (p ++ w) r l (us ++ ts) ∧ TextTrees p ts.reverse
  := by
  cases p with
  | nil =>
    rw [← List.append_nil us] at h
    exact ⟨[], h, .skipped rfl⟩
  | cons x p =>
    have hfirst : Yields (rules d) (.char isTextChar) [x] (p ++ (w ++ r)) l [] :=
      .char (hp x List.mem_cons_self)
    have hothers : Yields (rules d) (.span isTextChar) p (w ++ r) (l + [x].count '\n') [] := by
      refine .span (fun c hc => hp c (List.mem_cons_of_mem x hc)) fun c hc => ?_
      rw [hw c hc]
      decide
    have hleaf : Yields (rules d) child (x :: p) (w ++ r) l _ :=
      ((hfirst.seq hothers).leaf .text).altLeft
    refine ⟨_, Yields.starNext (v := x :: p) (List.cons_ne_nil x p) hleaf h, ?_⟩
    exact @TextTrees.kept _ [] [] (x :: p) _ (by simp) rfl rfl
      (isLeaf_leafNode (by decide) (x :: p) l)

theorem exists_render_eq (t : Written) :
  ∃ c s, t.render = '<' :: c :: s ∧ c.isAlpha = true
  := by
  cases t with
  | void tag attributes => exact ⟨tag.first, _, rfl, tag.isAlpha_first⟩
  | full tag attributes content => exact ⟨tag.first, _, rfl, tag.isAlpha_first⟩

/-- A written element that is read as markup is read as a child. -/
theorem yields_child (t : Written) {u : Tree}
    (h : Yields (rules d) (.rule .markup) t.render r l [u]) :
  Yields (rules d) child t.render r l [u]
  := by
  obtain ⟨c, s, hrender, hc⟩ := exists_render_eq t
  rw [hrender] at h ⊢
  have hne : c ≠ '!' := by
    rintro rfl
    cases hc
  have hnoComment : "<!--".toList.isPrefixOf (('<' :: c :: s) ++ r) = false := by
    change (true && ('!' == c && _)) = false
    rw [beq_eq_false_iff_ne.mpr hne.symm, Bool.false_and, Bool.and_false]
  let x := Ahead.cons '<' (c :: s ++ r) (by decide) (by decide)
  apply Yields.altRight (x.bars rfl)
  apply Yields.altRight (x.bars rfl)
  apply Yields.altRight (Bars.text hnoComment).seqLeft.seqLeft.scope
  apply h.altLeft

/-- Every character of text between tags is of a class that has all characters allowed there. -/
theorem mem_of_plainText {p : Char → Bool} (hp : (alphanums ++ [' ', '\n']).all p = true)
    (t : PlainText) :
  ∀ c ∈ t.chars, p c = true
  := by
  intro c hc
  apply List.all_eq_true.mp hp
  rw [List.mem_append]
  obtain h | rfl | rfl := t.isPart c hc
  · exact .inl (mem_alphanums h)
  · exact .inr (by decide)
  · exact .inr (by decide)

mutual

/-- A written element is read as a tree of that element. -/
theorem yields_markup (d : Dialect) (r before : List Char) :
  (t : Written) → ∃ u, Yields (rules d) (.rule .markup) t.render r (before.count '\n' + 1) [u]
    ∧ ElementTree before t u
  | .void tag attributes => yields_void before tag attributes
  | .full tag attributes content => by
    obtain ⟨us, hus, htrees⟩ := yields_content d (closingTag tag ++ r)
      (before ++ Written.tagHead tag attributes ++ ['>']) [] nofun (by rintro x ⟨⟩; rfl)
      (bars_child_closingTag tag) content
    apply yields_full before tag attributes hus htrees

/-- Content after some text is read as the trees of both. -/
theorem yields_content (d : Dialect) (r before p : List Char) (hp : ∀ c ∈ p, isTextChar c = true)
    (hr : ∀ x ∈ r.head?, x = '<') (hend : Bars (rules d) child r) :
  (content : Content) →
    ∃ us, Yields (rules d) (.star child) (p ++ content.render) r (before.count '\n' + 1) us
      ∧ ContentTrees before p content us.reverse
  | .nil => by
    obtain ⟨ts, hts, htrees⟩ := yields_text (w := []) hp hr (.starStop hend)
    exact ⟨ts, hts, .nil htrees⟩
  -- A text is not read by itself but kept in `p`, as the text up to the next tag is read at once.
  | .text t rest => by
    have hchars : ∀ c ∈ p ++ t.chars, isTextChar c = true := by
      intro c hc
      cases List.mem_append.mp hc with
      | inl hc => apply hp c hc
      | inr hc => apply mem_of_plainText (by decide +kernel) t c hc
    obtain ⟨us, hus, htrees⟩ := yields_content d r before (p ++ t.chars) hchars hr hend rest
    rw [Content.render, ← List.append_assoc]
    exact ⟨us, hus, .text htrees⟩
  | .child t rest => by
    obtain ⟨u, hu, htree⟩ := yields_markup d (rest.render ++ r) (before ++ p) t
    obtain ⟨us, hus, htrees⟩ := yields_content d r (before ++ p ++ t.render) [] nofun hr hend rest
    obtain ⟨c, s, hrender, -⟩ := exists_render_eq t
    have hline : (before ++ p).count '\n' + 1 = before.count '\n' + 1 + p.count '\n' := by
      rw [List.count_append]
      omega
    have hlines : (before ++ p ++ t.render).count '\n' + 1
        = before.count '\n' + 1 + p.count '\n' + t.render.count '\n' := by
      rw [List.count_append, ← hline]
      omega
    rw [hline] at hu
    rw [hlines] at hus
    have hne : t.render ≠ [] := by
      rw [hrender]
      apply List.cons_ne_nil _ _
    have hfirst : ∀ x ∈ ((t.render ++ rest.render) ++ r).head?, x = '<' := by
      rw [hrender]
      rintro x ⟨⟩
      rfl
    obtain ⟨ts, hts, htext⟩ := yields_text hp hfirst ((yields_child t hu).starNext hne hus)
    refine ⟨us ++ [u] ++ ts, hts, ?_⟩
    rw [List.reverse_append, List.reverse_append, List.reverse_singleton, List.singleton_append]
    exact .child htext htree htrees

end

end AccessAudit.Markup.Grammar
