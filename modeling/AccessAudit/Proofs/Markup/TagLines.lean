import AccessAudit.Markup.Source
import AccessAudit.Proofs.Markup.Preorder

/-!
# Lines of tags

A parser is assumed to mark tags: every tag that opens an element begins with a `<` of the source
and has the line of that character, which is one more than the number of line feeds before it.  Then
the line of every element of a page is the line of a `<`.
-/

namespace AccessAudit.Markup

/-- A line of a source on which a `<` stands. -/
def TagLine (source : List Char) (line : Nat) : Prop :=
  ∃ before after, source = before ++ '<' :: after ∧ line = before.count '\n' + 1

/-- A tree in which the tags that open elements have lines with a property. -/
inductive Tree.Tags (P : Nat → Prop) : Tree → Prop where
  | node {kind role first last text children}
    (root : kind = .selfClosing ∨ role = .openTag → P first)
    (inside : ∀ c ∈ children, Tags P c) :
    Tags P (.node kind role first last text children)

namespace Tree.Tags

variable {P : Nat → Prop} {t : Tree}

theorem first_of_kind (h : t.Tags P) (ht : t.kind = .selfClosing) :
  P t.first
  := by
  cases h with
  | node root _ => apply root (.inl ht)

theorem first_of_role (h : t.Tags P) (ht : t.role = .openTag) :
  P t.first
  := by
  cases h with
  | node root _ => apply root (.inr ht)

theorem children (h : t.Tags P) :
  ∀ c ∈ t.children, c.Tags P
  := by
  cases h with
  | node _ inside => apply inside

/-- Another role than that of an opening tag may be given to a tree. -/
theorem withRole (h : t.Tags P) {r : Role} (hr : r ≠ .openTag) :
  (t.withRole r).Tags P
  := by
  cases h with
  | node root inside =>
    refine .node ?_ inside
    rintro (hkind | hrole)
    · apply root (.inl hkind)
    · exact absurd hrole hr

/-- The line of the element that a tree is. -/
theorem line_of_element? (h : t.Tags P) {e : Element} (he : element? t = some e) :
  P e.line
  := by
  unfold element? at he
  split at he
  · obtain ⟨tag, htag, he⟩ := Option.bind_eq_some_iff.mp he
    obtain ⟨name, -, he⟩ := Option.bind_eq_some_iff.mp he
    cases he
    have hrole : tag.role = .openTag := by
      have := List.find?_some htag
      simpa using this
    apply (h.children tag (List.mem_of_find?_eq_some htag)).first_of_role hrole
  · obtain ⟨name, -, he⟩ := Option.bind_eq_some_iff.mp he
    cases he
    apply h.first_of_kind ‹_›
  · cases he

/-- The lines of all elements of a tree. -/
theorem line_of_mem_preorder (h : t.Tags P) {e : Element} (he : e ∈ t.preorder) :
  P e.line
  := by
  induction h with
  | @node kind role first last text children root inside ih =>
    rw [preorder_eq, List.mem_append] at he
    cases he with
    | inl he => apply line_of_element? (.node root inside) (Option.mem_toList.mp he)
    | inr he =>
      change e ∈ preorderAll children at he
      -- The elements below the root are those of its children, one after the other.
      clear root inside
      induction children with
      | nil => cases he
      | cons c children ihc =>
        rw [preorderAll, List.mem_append] at he
        cases he with
        | inl he => apply ih c List.mem_cons_self he
        | inr he => apply ihc (fun d hd => ih d (List.mem_cons_of_mem c hd)) he

end Tree.Tags

/-- In the trees of a parser, the tags that open elements begin with a `<` of the source. -/
def Parser.MarksTags (parser : Parser) : Prop :=
  ∀ (d : Dialect) (source : String) (t : Tree),
    parser.parse d source = .ok t → t.Tags (TagLine source.toList)

variable {parser : Parser} {d : Dialect} {path source : String} {page : Page}

/-- Every page that is read comes from a tree that the parser gives. -/
theorem Page.exists_parse_of_read (h : Page.read parser d path source = .ok page) :
  ∃ t, parser.parse d source = .ok t ∧ page = .ofTree t
  := by
  unfold Page.read at h
  split at h
  · cases h
    exact ⟨_, ‹_›, rfl⟩
  · cases h

theorem tagLine_of_mem_elements (hparser : parser.MarksTags)
    (h : Page.read parser d path source = .ok page) {e : Element} (he : e ∈ page.elements) :
  TagLine source.toList e.line
  := by
  obtain ⟨t, ht, rfl⟩ := Page.exists_parse_of_read h
  rw [Page.ofTree, Tree.elements_eq_preorder] at he
  apply (hparser d source t ht).line_of_mem_preorder he

/-- A reader of one of the dialects gives pages whose elements stand on lines with a `<`. -/
theorem tagLine_of_mem_builtin (hparser : parser.MarksTags) {reader : Reader}
    (hreader : reader ∈ Reader.builtin parser) (h : reader.read path source = .ok page) :
  ∀ e ∈ page.elements, TagLine source.toList e.line
  := by
  intro e he
  simp only [Reader.builtin, List.mem_cons, List.not_mem_nil, or_false] at hreader
  obtain rfl | rfl := hreader
  · apply tagLine_of_mem_elements hparser h he
  · apply tagLine_of_mem_elements hparser h he

end AccessAudit.Markup
