import AccessAudit.Markup.Source
import AccessAudit.Proofs.Markup.DocumentOrder
import AccessAudit.Proofs.Markup.Resolution
import AccessAudit.Proofs.Markup.Written
import AccessAudit.Proofs.Text.Alphanumeric

/-!
# Trees of written markup

What a syntax tree of written markup looks like, said for each piece of markup on its own: for tags,
for every form of attribute, for text, and for the declaration around an element.  The relations
leave open what nothing depends on, such as where nodes end, what is inside of literals, and whether
blank text gets a node.  A tree of this kind has the elements that the written element lists,
whichever parser it comes from.
-/

namespace AccessAudit.Markup

/-! ### Kinds of nodes -/

namespace Tree

/-- A tree without tags that open elements. -/
inductive Bare : Tree → Prop where
  | node {kind role first last text children} (element : kind ≠ .element)
    (selfClosing : kind ≠ .selfClosing) (inside : ∀ c ∈ children, Bare c) :
    Bare (.node kind role first last text children)

/-- A tree that keeps a text and opens no elements. -/
structure IsLeaf (t : Tree) (kind : Kind) (w : List Char) : Prop where
  kind_eq : t.kind = kind
  text_eq : t.text = String.ofList w
  bare : t.Bare

/-- A tree with some children and of some kind. -/
structure IsNode (t : Tree) (children : List Tree) (kind : Kind) : Prop where
  children_eq : t.children = children
  kind_eq : t.kind = kind

variable {t : Tree} {kind : Kind} {ts : List Tree}

/-- A node that is no element has the elements of its children. -/
theorem IsNode.preorder_eq (h : t.IsNode ts kind) (element : kind ≠ .element)
    (selfClosing : kind ≠ .selfClosing) :
  t.preorder = preorderAll ts
  := by
  have hnone : ∀ e, ¬ t.Builds e := by
    rintro e (⟨hkind, -, -⟩ | ⟨hkind, -⟩)
    · exact element (h.kind_eq.symm.trans hkind)
    · exact selfClosing (h.kind_eq.symm.trans hkind)
  rw [preorder_of_not_builds hnone, h.children_eq, preorderAll_eq_flatMap]

/-- There are no elements in a bare tree. -/
theorem Bare.preorder_eq (h : t.Bare) :
  t.preorder = []
  := by
  induction h with
  | @node kind role first last text children element selfClosing inside ih =>
    have hnode : IsNode (.node kind role first last text children) children kind := ⟨rfl, rfl⟩
    rw [hnode.preorder_eq element selfClosing, preorderAll_eq_flatMap, List.flatMap_eq_nil_iff]
    exact ih

@[simp]
theorem preorderAll_singleton (t : Tree) :
  preorderAll [t] = t.preorder
  := List.append_nil _

theorem preorderAll_of_bare (h : ∀ t ∈ ts, t.Bare) :
  preorderAll ts = []
  := by
  rw [preorderAll_eq_flatMap, List.flatMap_eq_nil_iff]
  exact fun t ht => (h t ht).preorder_eq

theorem IsNode.bare (h : t.IsNode ts kind) (element : kind ≠ .element)
    (selfClosing : kind ≠ .selfClosing) (inside : ∀ c ∈ ts, c.Bare) :
  t.Bare
  := by
  cases t
  obtain ⟨rfl, rfl⟩ := h
  exact .node element selfClosing inside

theorem IsNode.parts_eq (h : t.IsNode ts kind) (hts : ∀ c ∈ ts, c.kind ≠ .comment) :
  t.parts = ts
  := by
  rw [parts, h.children_eq, List.filter_eq_self]
  simpa using hts

/-- Braces around a tree that is no comment and not in parentheses have its value. -/
theorem IsNode.resolves {inside : Tree} (h : t.IsNode [inside] .container)
    (comment : inside.kind ≠ .comment) (parenthesized : inside.kind ≠ .parenthesized) {v : Value}
    (hv : inside.Spells v) :
  t.Resolves v
  := by
  apply Resolves.braces (n := 0) h.kind_eq _ hv
  rw [h.children_eq]
  exact .bare ⟨[], [], rfl, nofun, comment⟩ parenthesized

end Tree

namespace Written

/-! ### Attributes -/

/-- The trees of an attribute. -/
inductive AttributeTree : Attribute → Tree → Prop where
  | bare {n : AttributeName} {name t : Tree} (hname : name.IsLeaf .identifier n.chars)
    (ht : t.IsNode [name] .attribute) :
    AttributeTree (.bare n) t
  | quoted {n : AttributeName} {q : Quoted} {name value t : Tree}
    (hname : name.IsLeaf .identifier n.chars) (hvalue : value.IsLeaf .string (inQuotes q.chars))
    (ht : t.IsNode [name, value] .attribute) :
    AttributeTree (.quoted n q) t
  | braced {n : AttributeName} {q : Quoted} {name value braces t : Tree}
    (hname : name.IsLeaf .identifier n.chars) (hvalue : value.IsLeaf .string (inQuotes q.chars))
    (hbraces : braces.IsNode [value] .container) (ht : t.IsNode [name, braces] .attribute) :
    AttributeTree (.braced n q) t
  | flag {n : AttributeName} {b : Bool} {name value braces t : Tree}
    (hname : name.IsLeaf .identifier n.chars)
    (hvalue : value.IsLeaf (if b then .true else .false) (flagWord b))
    (hbraces : braces.IsNode [value] .container) (ht : t.IsNode [name, braces] .attribute) :
    AttributeTree (.flag n b) t
  | ofVariable {n : AttributeName} {v : Variable} {name value braces t : Tree}
    (hname : name.IsLeaf .identifier n.chars) (hvalue : value.IsLeaf .identifier v.chars)
    (hbraces : braces.IsNode [value] .container) (ht : t.IsNode [name, braces] .attribute) :
    AttributeTree (.ofVariable n v) t
  | spread {v : Variable} {value points t : Tree} (hvalue : value.IsLeaf .identifier v.chars)
    (hpoints : points.IsNode [value] .spread) (ht : t.IsNode [points] .container) :
    AttributeTree (.spread v) t

@[simp]
theorem unquote_inQuotes (w : List Char) :
  unquote (String.ofList (inQuotes w)) = String.ofList w
  := by
  have hbetween : between? '"' (inQuotes w) = some w := by
    rw [inQuotes, between?, if_pos ⟨rfl, List.getLast?_concat⟩, List.dropLast_concat]
  rw [unquote, String.toList_ofList, hbetween, Option.some_or]

theorem text_of_quoted {t : Tree} {kind : Kind} {w : List Char} (h : t.IsLeaf kind (inQuotes w)) :
  unquote t.text = String.ofList w
  := by
  simp [h.text_eq]

namespace AttributeTree

variable {a : Attribute} {t : Tree}

/-- The name and the value that the tree of an attribute sets are those of the attribute. -/
theorem written?_eq (h : AttributeTree a t) :
  written? t = some (a.key, a.value)
  := by
  -- In every form but the spread, the node has a name, and behind it at most one more child.
  have hnamed {n : AttributeName} {name value : Tree} {v : Value}
      (hname : name.IsLeaf .identifier n.chars) (ht : t.IsNode [name, value] .attribute)
      (hcomment : value.kind ≠ .comment) (hv : value.Resolves v) :
      t.Sets (String.ofList n.chars) v := by
    rw [← hname.text_eq]
    exact .valued ht.kind_eq (ht.parts_eq (by simp [hname.kind_eq, hcomment])) hv
  rw [written?_eq_some_iff]
  cases h with
  | @bare n name _ hname ht =>
    left
    change t.Sets (String.ofList n.chars) (.boolean true)
    rw [← hname.text_eq]
    exact .bare ht.kind_eq (ht.parts_eq (by simp [hname.kind_eq]))
  | @quoted n q _ _ _ hname hvalue ht =>
    left
    apply hnamed hname ht (by simp [hvalue.kind_eq])
    change Tree.Resolves _ (.string (String.ofList q.chars))
    rw [← text_of_quoted hvalue]
    exact .string hvalue.kind_eq
  | @braced n q _ _ _ _ hname hvalue hbraces ht =>
    left
    apply hnamed hname ht (by simp [hbraces.kind_eq])
    apply hbraces.resolves (by simp [hvalue.kind_eq]) (by simp [hvalue.kind_eq])
    change Tree.Spells _ (.string (String.ofList q.chars))
    rw [← text_of_quoted hvalue]
    exact .string hvalue.kind_eq
  | @flag n b _ _ _ _ hname hvalue hbraces ht =>
    left
    apply hnamed hname ht (by simp [hbraces.kind_eq])
    have hkind := hvalue.kind_eq
    cases b with
    | true => exact hbraces.resolves (by simp [hkind]) (by simp [hkind]) (.true hkind)
    | false => exact hbraces.resolves (by simp [hkind]) (by simp [hkind]) (.false hkind)
  | @ofVariable n v _ _ _ _ hname hvalue hbraces ht =>
    left
    apply hnamed hname ht (by simp [hbraces.kind_eq])
    have hkind := hvalue.kind_eq
    exact hbraces.resolves (by simp [hkind]) (by simp [hkind]) (.other (by simp [hkind]))
  | spread hvalue hpoints ht =>
    right
    have hmem : ∀ c ∈ t.children, c.kind = .spread := by
      simp [ht.children_eq, hpoints.kind_eq]
    exact ⟨⟨ht.kind_eq, by simp [ht.children_eq, hpoints.kind_eq]⟩, rfl, rfl⟩

theorem addAttribute_eq (h : AttributeTree a t) (m : Attributes) :
  addAttribute m t = m.insert a.key a.value
  := by
  rw [Markup.addAttribute_eq, h.written?_eq]
  rfl

/-- There are no elements in the tree of an attribute. -/
theorem isBare (h : AttributeTree a t) :
  t.Bare
  := by
  cases h with
  | bare hname ht => exact ht.bare nofun nofun (by simpa using hname.bare)
  | quoted hname hvalue ht =>
    exact ht.bare nofun nofun (by simpa using ⟨hname.bare, hvalue.bare⟩)
  | braced hname hvalue hbraces ht | flag hname hvalue hbraces ht
  | ofVariable hname hvalue hbraces ht =>
    have hbare := hbraces.bare nofun nofun (by simpa using hvalue.bare)
    exact ht.bare nofun nofun (by simpa using ⟨hname.bare, hbare⟩)
  | spread hvalue hpoints ht =>
    have hbare := hpoints.bare nofun nofun (by simpa using hvalue.bare)
    exact ht.bare nofun nofun (by simpa using hbare)

end AttributeTree

/-- Adding attributes in their order leaves the last one of each name. -/
theorem foldl_insert_eq_lastOfEach (attributes : List Attribute) :
  attributes.foldl (fun m a => Attributes.insert m a.key a.value) []
    = Attribute.lastOfEach attributes
  := by
  -- Of the entries that were there before, those remain that no later attribute replaces.
  suffices h : ∀ m : Attributes, attributes.foldl (fun m a => Attributes.insert m a.key a.value) m
      = m.filter (fun entry => !attributes.any fun a => a.key == entry.1)
        ++ Attribute.lastOfEach attributes from h []
  induction attributes with
  | nil =>
    intro m
    rw [List.foldl_nil, Attribute.lastOfEach, List.append_nil]
    exact (List.filter_eq_self.mpr fun _ _ => rfl).symm
  | cons a attributes ih =>
    intro m
    rw [List.foldl_cons, ih, Attributes.insert, List.filter_append, List.filter_filter,
      Attribute.lastOfEach, List.append_assoc]
    have hbefore : m.filter (fun entry => (!attributes.any fun b => b.key == entry.1)
          && entry.1 != a.key)
        = m.filter (fun entry => !(a :: attributes).any fun b => b.key == entry.1) := by
      apply List.filter_congr
      intro entry _
      rw [List.any_cons, Bool.not_or, Bool.and_comm, bne_comm]
      rfl
    rw [hbefore]
    cases hany : attributes.any fun b => b.key == a.key with
    | true => simp [hany]
    | false => simp [hany]

/-! ### Tags -/

/-- The trees of a tag that opens an element after some text: it begins on the line that the text
has reached, and has its name and its attributes as children. -/
inductive TagTree (before : List Char) (tag : Name) (attributes : List Attribute) (kind : Kind) :
    Tree → Prop where
  | intro {name t : Tree} {ts : List Tree} (hname : name.IsLeaf .identifier tag.chars)
    (hrole : name.role = .name) (hattributes : List.Forall₂ AttributeTree attributes ts)
    (ht : t.IsNode (name :: ts) kind) (hline : t.first = before.count '\n' + 1) :
    TagTree before tag attributes kind t

namespace TagTree

variable {before : List Char} {tag : Name} {attributes : List Attribute} {kind : Kind} {t : Tree}

theorem kind_eq (h : TagTree before tag attributes kind t) :
  t.kind = kind
  := by
  cases h with
  | intro _ _ _ ht => apply ht.kind_eq

/-- There are no elements inside of a tag. -/
theorem inside (h : TagTree before tag attributes kind t) :
  ∀ c ∈ t.children, c.Bare
  := by
  obtain ⟨hname, -, hattributes, ht, -⟩ := h
  rw [ht.children_eq, List.forall_mem_cons]
  refine ⟨hname.bare, ?_⟩
  clear ht
  induction hattributes with
  | nil => nofun
  | cons ha _ ih => exact List.forall_mem_cons.mpr ⟨ha.isBare, ih⟩

theorem bare (h : TagTree before tag attributes kind t) (element : kind ≠ .element)
    (selfClosing : kind ≠ .selfClosing) :
  t.Bare
  := Tree.IsNode.bare ⟨rfl, h.kind_eq⟩ element selfClosing h.inside

/-- The attributes of a tag are those that are written in it. -/
theorem tagAttributes_eq (h : TagTree before tag attributes kind t) :
  tagAttributes t = Attribute.lastOfEach attributes
  := by
  obtain ⟨hname, -, hattributes, ht, -⟩ := h
  have hfirst (m : Attributes) (name : Tree) (hkind : name.kind = .identifier) :
      addAttribute m name = m := by
    rw [addAttribute, hkind]
  rw [tagAttributes, ht.children_eq, List.foldl_cons, hfirst _ _ hname.kind_eq,
    ← foldl_insert_eq_lastOfEach]
  -- The induction is on the attributes, whatever was set by those before them.
  clear ht
  generalize ([] : Attributes) = m
  induction hattributes generalizing m with
  | nil => rfl
  | cons ha _ ih => rw [List.foldl_cons, List.foldl_cons, ha.addAttribute_eq, ih]

/-- The element that a tag opens has its name in small letters, the line of the tag and the
attributes that are written in it. -/
theorem exists_name (h : TagTree before tag attributes kind t) :
  ∃ name, t.child? .name = some name ∧ ∀ hasChildren selfClosing,
    elementOf t (.ofTree name) hasChildren selfClosing
      = ⟨tag.lower, before.count '\n' + 1, Attribute.lastOfEach attributes, hasChildren,
          selfClosing⟩
  := by
  have hattributes := h.tagAttributes_eq
  obtain @⟨name, _, ts, hname, hrole, -, ht, hline⟩ := h
  refine ⟨name, ?_, fun hasChildren selfClosing => ?_⟩
  · rw [Tree.child?, ht.children_eq, List.find?_cons_of_pos (by simp [hrole])]
  · have hlabel : (TagName.ofTree name).label = tag.lower := by
      rw [TagName.ofTree, hname.kind_eq, TagName.label, hname.text_eq, Text.lower,
        String.toList_ofList]
      rfl
    rw [elementOf, hlabel, hline, hattributes]

end TagTree

/-! ### Elements -/

/-- The trees of the text between two tags: a parser may leave out text without anything but blanks,
and blanks at either end of other text. -/
inductive TextTrees (w : List Char) : List Tree → Prop where
  | skipped (hw : w.all Text.isBlank = true) : TextTrees w []
  | kept {u v middle : List Char} {t : Tree} (hw : w = u ++ middle ++ v)
    (hu : u.all Text.isBlank = true) (hv : v.all Text.isBlank = true)
    (ht : t.IsLeaf .text middle) : TextTrees w [t]

namespace TextTrees

variable {w : List Char} {ts : List Tree}

theorem preorderAll_eq (h : TextTrees w ts) :
  Tree.preorderAll ts = []
  := by
  cases h with
  | skipped => rfl
  | kept _ _ _ ht => exact Tree.preorderAll_of_bare (by simpa using ht.bare)

theorem any_isContent (h : TextTrees w ts) :
  ts.any isContent = !w.all Text.isBlank
  := by
  cases h with
  | skipped hw => simp [hw]
  | kept hw hu hv ht =>
    simp [isContent, ht.kind_eq, ht.text_eq, hw, List.all_append, hu, hv]

end TextTrees

mutual

/-- The trees of a written element after some text. -/
inductive ElementTree : List Char → Written → Tree → Prop where
  | void {before : List Char} {tag : Name} {attributes : List Attribute} {t : Tree}
    (ht : TagTree before tag attributes .selfClosing t) :
    ElementTree before (.void tag attributes) t
  | full {before : List Char} {tag : Name} {attributes : List Attribute} {content : Content}
    {opening closing t : Tree} {ts : List Tree}
    (hopening : TagTree before tag attributes .openingTag opening)
    (hrole : opening.role = .openTag)
    (hcontent : ContentTrees (before ++ tagHead tag attributes ++ ['>']) [] content ts)
    (hclosing : closing.kind = .closingTag) (hbare : closing.Bare)
    (ht : t.IsNode (opening :: (ts ++ [closing])) .element) :
    ElementTree before (.full tag attributes content) t

/-- The trees of written content after some text and after further text that belongs to the
content.  Texts without a tag between them are one. -/
inductive ContentTrees : List Char → List Char → Content → List Tree → Prop where
  | nil {before w : List Char} {ts : List Tree} (hts : TextTrees w ts) :
    ContentTrees before w .nil ts
  | text {before w : List Char} {t : PlainText} {rest : Content} {ts : List Tree}
    (hrest : ContentTrees before (w ++ t.chars) rest ts) :
    ContentTrees before w (.text t rest) ts
  | child {before w : List Char} {e : Written} {rest : Content} {t : Tree} {ts us : List Tree}
    (hts : TextTrees w ts) (ht : ElementTree (before ++ w) e t)
    (hrest : ContentTrees (before ++ w ++ e.render) [] rest us) :
    ContentTrees before w (.child e rest) (ts ++ t :: us)

end

/-- A tree of a written element is one in whatever role it stands. -/
theorem ElementTree.withRole {before : List Char} {e : Written} {t : Tree}
    (h : ElementTree before e t) (role : Role) :
  ElementTree before e (t.withRole role)
  := by
  cases t
  cases h with
  | void ht =>
    obtain ⟨hname, hrole, hattributes, ⟨hchildren, hkind⟩, hline⟩ := ht
    exact .void (.intro hname hrole hattributes ⟨hchildren, hkind⟩ hline)
  | full hopening hrole hcontent hclosing hbare ht =>
    exact .full hopening hrole hcontent hclosing hbare ⟨ht.children_eq, ht.kind_eq⟩

/-- A text is blank if it has nothing but blanks and line feeds. -/
theorem not_all_isBlank (t : PlainText) :
  (!t.chars.all Text.isBlank) = t.chars.any fun c => c != ' ' && c != '\n'
  := by
  have hsame : ∀ c ∈ t.chars, (!Text.isBlank c) = (c != ' ' && c != '\n') := by
    intro c hc
    obtain halphanum | rfl | rfl := t.isPart c hc
    · rw [← beq_iff_eq]
      exact Text.of_isAlphanum (p := fun c => (!Text.isBlank c) == (c != ' ' && c != '\n'))
        (by decide +kernel) halphanum
    · decide
    · decide
  rw [List.not_all_eq_any_not, Bool.eq_iff_iff, List.any_eq_true, List.any_eq_true]
  apply exists_congr
  intro c
  rw [and_congr_right_iff]
  exact fun hc => Eq.congr_left (hsame c hc)

theorem ElementTree.isContent_eq {before : List Char} {e : Written} {t : Tree}
    (h : ElementTree before e t) :
  isContent t = true
  := by
  cases h with
  | void ht => rw [isContent, ht.kind_eq]
  | full _ _ _ _ _ ht => rw [isContent, ht.kind_eq]

mutual

/-- The elements of a tree of a written element are those that it lists. -/
theorem ElementTree.preorder_eq {before : List Char} {t : Tree} :
  (e : Written) → ElementTree before e t → t.preorder = e.listing before
  | .void tag attributes, .void ht => by
    obtain ⟨name, hname, helement⟩ := ht.exists_name
    rw [Tree.preorder_of_builds (.selfClosing ht.kind_eq hname), helement,
      ← Tree.preorderAll_eq_flatMap, Tree.preorderAll_of_bare ht.inside]
    rfl
  | .full tag attributes content,
      @ElementTree.full _ _ _ _ opening _ _ _ hopening hrole hcontent hclosing hbare ht => by
    obtain ⟨name, hname, helement⟩ := hopening.exists_name
    obtain ⟨hinside, hfilled⟩ := hcontent.elements_eq content
    have hchild : t.child? .openTag = some opening := by
      rw [Tree.child?, ht.children_eq, List.find?_cons_of_pos (by simp [hrole])]
    have hany : t.children.any isContent = content.isFilled := by
      rw [ht.children_eq, List.any_cons, List.any_append, hfilled]
      simp [isContent, hopening.kind_eq, hclosing]
    -- Neither tag has elements inside, so those below the root are those of the content.
    have hopeningBare := hopening.bare nofun nofun
    rw [Tree.preorder_of_builds (.opened ht.kind_eq hchild hname), helement, hany, ht.children_eq,
      ← Tree.preorderAll_eq_flatMap, Tree.preorderAll, hopeningBare.preorder_eq,
      Tree.preorderAll_append, hinside, Tree.preorderAll_of_bare (by simpa using hbare),
      List.append_nil, List.append_nil]
    rfl

/-- The elements of trees of written content are those that it lists, and there is content among
the trees if the text before it or the content itself is filled. -/
theorem ContentTrees.elements_eq {before w : List Char} {ts : List Tree} :
  (content : Content) → ContentTrees before w content ts →
    Tree.preorderAll ts = content.listing (before ++ w)
      ∧ ts.any isContent = (!w.all Text.isBlank || content.isFilled)
  | .nil, .nil hts => by
    rw [hts.preorderAll_eq, hts.any_isContent, Content.isFilled, Bool.or_false]
    exact ⟨rfl, rfl⟩
  | .text t rest, .text hrest => by
    obtain ⟨hpreorder, hfilled⟩ := hrest.elements_eq rest
    rw [hpreorder, hfilled, Content.listing, Content.isFilled, List.all_append, Bool.not_and,
      Bool.or_assoc, not_all_isBlank, List.append_assoc]
    exact ⟨rfl, rfl⟩
  | .child e rest, .child hts ht hrest => by
    obtain ⟨hpreorder, -⟩ := hrest.elements_eq rest
    rw [Tree.preorderAll_append, hts.preorderAll_eq, Tree.preorderAll, ht.preorder_eq e, hpreorder,
      List.any_append, List.any_cons, ht.isContent_eq, Content.isFilled, List.append_nil]
    exact ⟨rfl, by simp⟩

end

/-! ### Sources -/

/-- The trees of the source that declares a constant as a written element. -/
inductive SourceTree (e : Written) : Tree → Prop where
  | intro {name value declarator declaration t : Tree} (hname : name.IsLeaf .identifier ['x'])
    (hvalue : ElementTree declarationHead e value)
    (hdeclarator : declarator.IsNode [name, value] .declarator)
    (hdeclaration : declaration.IsNode [declarator] .lexicalDeclaration)
    (ht : t.IsNode [declaration] .other) :
    SourceTree e t

/-- The elements of the source that declares a constant are those of the constant. -/
theorem SourceTree.elements_eq {e : Written} {t : Tree} (h : SourceTree e t) :
  t.elements = e.listing declarationHead
  := by
  obtain ⟨hname, hvalue, hdeclarator, hdeclaration, ht⟩ := h
  rw [Tree.elements_eq_preorder, ht.preorder_eq nofun nofun, Tree.preorderAll_singleton,
    hdeclaration.preorder_eq nofun nofun, Tree.preorderAll_singleton,
    hdeclarator.preorder_eq nofun nofun, Tree.preorderAll, hname.bare.preorder_eq,
    List.nil_append, Tree.preorderAll_singleton, hvalue.preorder_eq]

end Written

/-- A parser gives the trees of written markup to the sources that declare it, in both dialects. -/
def Parser.ReadsWritten (parser : Parser) : Prop :=
  ∀ (d : Dialect) (e : Written), ∃ t, parser.parse d e.source = .ok t ∧ e.SourceTree t

end AccessAudit.Markup
