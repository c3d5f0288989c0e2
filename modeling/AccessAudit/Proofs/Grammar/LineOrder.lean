import AccessAudit.Markup.Grammar.Rules
import AccessAudit.Markup.Source
import AccessAudit.Proofs.Grammar.Position
import AccessAudit.Proofs.Markup.DocumentOrder

/-!
# Lines of nodes

The nodes that are read in a scope stand one after the other between the beginning of the scope and
the place that was reached, and a scope is closed as an element only after its first node was closed
as an opening tag.  `Expr.closesElements` checks the latter of an expression.  So every tree that is
read from a source has its places in order, and the elements of a page come with lines that do not
decrease.
-/

namespace AccessAudit.Markup

namespace Grammar

theorem Cursor.Before.line_le {c d : Cursor} (h : c.Before d) :
  c.line ≤ d.line
  := by
  obtain ⟨w, hw⟩ := h
  rw [hw.line]
  omega

/-! ### Nodes between two lines -/

/-- Trees that stand one after the other between two lines, the last one first. -/
structure Stacked (low high : Nat) (ts : List Tree) : Prop where
  ordered : ∀ t ∈ ts, t.Ordered
  between : ∀ t ∈ ts, low ≤ t.first ∧ t.last ≤ high
  apart : ts.Pairwise fun a b => b.last ≤ a.first

namespace Stacked

variable {low middle high : Nat} {ts us : List Tree}

theorem nil :
  Stacked low high []
  := ⟨nofun, nofun, .nil⟩

/-- Trees up to one line and trees from that line on. -/
theorem append (hus : Stacked middle high us) (hts : Stacked low middle ts)
    (hlow : low ≤ middle) (hhigh : middle ≤ high) :
  Stacked low high (us ++ ts)
  := by
  refine ⟨?_, ?_, List.pairwise_append.mpr ⟨hus.apart, hts.apart, ?_⟩⟩
  · intro t ht
    cases List.mem_append.mp ht with
    | inl ht => apply hus.ordered t ht
    | inr ht => apply hts.ordered t ht
  · intro t ht
    cases List.mem_append.mp ht with
    | inl ht =>
      have := hus.between t ht
      omega
    | inr ht =>
      have := hts.between t ht
      omega
  · intro a ha b hb
    exact Nat.le_trans (hts.between b hb).2 (hus.between a ha).1

theorem mono (h : Stacked low middle ts) (hhigh : middle ≤ high) :
  Stacked low high ts
  := ⟨h.ordered, fun t ht => ⟨(h.between t ht).1, Nat.le_trans (h.between t ht).2 hhigh⟩, h.apart⟩

/-- One tree. -/
theorem singleton {t : Tree} (h : t.Ordered) :
  Stacked t.first t.last [t]
  := by
  refine ⟨?_, ?_, List.pairwise_singleton _ t⟩
  · intro u hu
    cases List.mem_singleton.mp hu
    apply h
  · intro u hu
    cases List.mem_singleton.mp hu
    exact ⟨Nat.le_refl _, Nat.le_refl _⟩

/-- Trees that are changed without changing their places. -/
theorem map (h : Stacked low high ts) {f : Tree → Tree}
    (hf : ∀ t : Tree, t.Ordered → (f t).Ordered) (hfirst : ∀ t, (f t).first = t.first)
    (hlast : ∀ t, (f t).last = t.last) :
  Stacked low high (ts.map f)
  := by
  refine ⟨?_, ?_, ?_⟩
  · intro t ht
    obtain ⟨u, hu, rfl⟩ := List.mem_map.mp ht
    apply hf u (h.ordered u hu)
  · intro t ht
    obtain ⟨u, hu, rfl⟩ := List.mem_map.mp ht
    rw [hfirst, hlast]
    apply h.between u hu
  · simpa only [List.pairwise_map, hfirst, hlast] using h.apart

end Stacked

/-! ### Gaps -/

theorem ordered_comment {c d : Cursor} (h : c.Before d) :
  (comment c d).Ordered
  := .node h.line_le nofun .nil nofun nofun

theorem Stacked.comment {low : Nat} {c d : Cursor} {ts : List Tree} (hts : Stacked low c.line ts)
    (hlow : low ≤ c.line) (h : c.Before d) :
  Stacked low d.line (Grammar.comment c d :: ts)
  := (singleton (ordered_comment h)).append hts hlow h.line_le

/-- The comments of a gap stand one after the other up to the next token. -/
theorem stacked_readGap {low : Nat} (mode : GapMode) (comments : List Tree) (newline : Bool)
    (l : List Char) (c : Cursor) (hc : c.rest = l) (h : (mode.anchor c).Before c)
    (hlow : low ≤ (mode.anchor c).line) (hcomments : Stacked low (mode.anchor c).line comments) :
  Stacked low (readGap mode comments newline l c).cursor.line
    (readGap mode comments newline l c).comments
  := by
  fun_induction readGap mode comments newline l c with
  | case1 | case4 | case5 | case8 | case12 => apply hcomments
  | case9 => apply hcomments.comment hlow h
  | case2 _ _ _ _ _ _ ih =>
    have hstep := (Cursor.before_step hc).line_le
    apply ih rfl (.refl _) (Nat.le_trans hlow hstep) (hcomments.mono hstep)
  | case3 _ _ _ _ _ ih => apply ih rfl (Cursor.before_step hc) hlow hcomments
  | case6 _ _ _ _ _ ih | case7 _ _ _ _ _ _ ih =>
    apply ih rfl (h.trans (Cursor.before_step hc)) hlow hcomments
  | case11 _ _ _ _ _ _ _ ih | case14 _ _ _ _ _ _ _ _ ih =>
    apply ih rfl (h.trans (Cursor.before_step hc)) hlow hcomments
  | case10 _ _ _ _ _ _ _ ih =>
    have hstep := (Cursor.before_step hc).line_le
    apply ih rfl (.refl _) (Nat.le_trans (Nat.le_trans hlow h.line_le) hstep)
      ((hcomments.comment hlow h).mono hstep)
  | case13 _ _ _ _ _ _ _ _ _ ih =>
    have hstep := h.trans (Cursor.before_step hc)
    apply ih rfl (.refl _) (Nat.le_trans hlow hstep.line_le) (hcomments.comment hlow hstep)

/-! ### Scopes that begin with an opening tag -/

/-- The first of some nodes, which are listed with the last one first, is an opening tag. -/
def BeginsWithTag (nodes : List Tree) : Prop :=
  ∃ tag, nodes.getLast? = some tag ∧ tag.role = .openTag

theorem BeginsWithTag.append {nodes : List Tree} (h : BeginsWithTag nodes) (more : List Tree) :
  BeginsWithTag (more ++ nodes)
  := by
  obtain ⟨tag, hlast, hrole⟩ := h
  exact ⟨tag, by rw [List.getLast?_append, hlast, Option.some_or], hrole⟩

/-- The opening tag that is found among the nodes is the first of them. -/
theorem BeginsWithTag.head?_reverse {nodes : List Tree} (h : BeginsWithTag nodes) {tag : Tree}
    (htag : nodes.reverse.find? (fun c => c.role == .openTag) = some tag) :
  nodes.reverse.head? = some tag
  := by
  obtain ⟨first, hfirst, hrole⟩ := h
  rw [← List.head?_reverse] at hfirst
  obtain ⟨rest, hrest⟩ := List.head?_eq_some_iff.mp hfirst
  rw [hrest, List.find?_cons_of_pos (by simp [hrole])] at htag
  rw [hfirst, htag]

variable {σ : Type}

/-- Whether the first node of a scope is an opening tag after an expression was read in it.  The
flag says whether it is before that. -/
def Expr.beginsWithTag (begun : Bool) : Expr σ → Bool
  | .close _ r _ => r == .openTag
  | .seq a b => b.beginsWithTag (a.beginsWithTag begun)
  | .alt a b => a.beginsWithTag begun && b.beginsWithTag begun
  | .star e => begun && e.beginsWithTag begun
  | _ => begun

/-- Whether an expression closes a scope as an element only where the first node of the scope is an
opening tag.  The flag says whether it is so where the expression itself is read. -/
def Expr.closesElements (begun : Bool) : Expr σ → Bool
  | .close kind _ _ => kind != .element || begun
  | .seq a b => a.closesElements begun && b.closesElements (a.beginsWithTag begun)
  | .alt a b => a.closesElements begun && b.closesElements begun
  | .star e | .scope e | .role _ e => e.closesElements false
  | _ => true

variable {g : σ → Expr σ} {e : Expr σ} {s t : State}

/-- Readings keep the opening tag at the beginning of a scope. -/
theorem Leads.beginsWithTag (hg : ∀ name, (g name).beginsWithTag true = true) (h : Leads g e s t)
    {begun : Bool} (hbegun : begun = true → BeginsWithTag s.nodes)
    (he : e.beginsWithTag begun = true) :
  BeginsWithTag t.nodes
  := by
  induction h generalizing begun with
  | empty | char | span | text | test | look | «unless» => apply hbegun he
  | gap | scope | role => apply (hbegun he).append _
  | seq _ _ iha ihb => apply ihb (iha hbegun) he
  | altLeft _ ih => exact ih hbegun (Bool.and_eq_true _ _ ▸ he).1
  | altRight _ ih => exact ih hbegun (Bool.and_eq_true _ _ ▸ he).2
  | starStop =>
    rw [Expr.beginsWithTag, Bool.and_eq_true] at he
    apply hbegun he.1
  | starNext _ _ ih ih' =>
    rw [Expr.beginsWithTag, Bool.and_eq_true] at he
    obtain ⟨rfl, he⟩ := he
    exact ih' (fun _ => ih hbegun he) (by rw [Expr.beginsWithTag, he, Bool.and_self])
  | close kind r keep s => exact ⟨_, rfl, by simpa [Expr.beginsWithTag, Tree.role] using he⟩
  | rule _ ih => exact ih (fun _ => hbegun he) (hg _)

/-! ### Readings -/

/-- A state whose nodes stand one after the other between the beginning of the scope and the place
that was reached. -/
structure State.Ordered (s : State) : Prop where
  begun : s.opening.line ≤ s.cursor.line
  stacked : Stacked s.opening.line s.cursor.line s.nodes

namespace State.Ordered

theorem moveTo (h : s.Ordered) {c : Cursor} (hc : s.cursor.Before c) :
  (s.moveTo c).Ordered
  := ⟨Nat.le_trans h.begun hc.line_le, h.stacked.mono hc.line_le⟩

theorem enter (s : State) :
  s.enter.Ordered
  := ⟨Nat.le_refl _, .nil⟩

theorem append (h : s.Ordered) {c : Cursor} {ts : List Tree} (hc : s.cursor.Before c)
    (hts : Stacked s.cursor.line c.line ts) :
  State.Ordered ⟨c, s.opening, ts ++ s.nodes⟩
  := ⟨Nat.le_trans h.begun hc.line_le, hts.append h.stacked h.begun hc.line_le⟩

/-- A scope that becomes a node. -/
theorem close (h : s.Ordered) (kind : Kind) (role : Role) (keep : Bool)
    (htag : kind = .element → BeginsWithTag s.nodes) :
  (s.close kind role keep).Ordered
  := by
  refine ⟨h.begun, Stacked.singleton (.node h.begun ?_ ?_ ?_ ?_)⟩
  · intro c hc
    apply h.stacked.between c (List.mem_reverse.mp hc)
  · exact List.pairwise_reverse.mpr h.stacked.apart
  · intro hkind tag htag'
    apply (htag hkind).head?_reverse htag'
  · intro c hc
    apply h.stacked.ordered c (List.mem_reverse.mp hc)

end State.Ordered

theorem Leads.stacked_of_enter (h : Leads g e s.enter t) (ht : t.Ordered) :
  Stacked s.cursor.line t.cursor.line t.nodes
  := by
  have hopening : t.opening = s.cursor := h.before.2
  rw [← hopening]
  apply ht.stacked

/-- Readings keep the order of places. -/
theorem Leads.ordered
    (hg : ∀ name, (g name).beginsWithTag true = true ∧ (g name).closesElements false = true)
    (h : Leads g e s t) {begun : Bool} (hbegun : begun = true → BeginsWithTag s.nodes)
    (he : e.closesElements begun = true) (hs : s.Ordered) :
  t.Ordered
  := by
  induction h generalizing begun with
  | empty | test | starStop | look | «unless» => apply hs
  | char ahead => apply hs.moveTo (Cursor.before_step ahead)
  | span test s => exact hs.moveTo ⟨_, Cursor.passes_skipWhile test s.cursor⟩
  | text ahead => exact hs.moveTo ⟨_, Cursor.passes_of_skipText? ahead⟩
  | gap s =>
    apply hs.append s.cursor.before_gap
    apply stacked_readGap .blank [] false _ _ rfl (.refl _) (Nat.le_refl _) .nil
  | seq ha _ iha ihb =>
    rw [Expr.closesElements, Bool.and_eq_true] at he
    exact ihb (ha.beginsWithTag (fun name => (hg name).1) hbegun) he.2 (iha hbegun he.1 hs)
  | altLeft _ ih =>
    rw [Expr.closesElements, Bool.and_eq_true] at he
    apply ih hbegun he.1 hs
  | altRight _ ih =>
    rw [Expr.closesElements, Bool.and_eq_true] at he
    apply ih hbegun he.2 hs
  -- In a repetition, an inner scope and a rule nothing need be known of the first node.
  | starNext _ _ ih ih' => exact @ih' false nofun he (@ih false nofun he hs)
  | scope h ih =>
    apply hs.append h.before.1
    exact h.stacked_of_enter (@ih false nofun he (.enter _))
  | close kind role keep s =>
    apply hs.close
    intro hkind
    apply hbegun
    simpa [Expr.closesElements, hkind] using he
  | role h ih =>
    apply hs.append h.before.1
    apply (h.stacked_of_enter (@ih false nofun he (.enter _))).map
    · intro t ht
      split
      · apply ht
      · apply ht.withRole _
    · rintro ⟨⟩
      split <;> rfl
    · rintro ⟨⟩
      split <;> rfl
  | rule _ ih => exact @ih false nofun (hg _).2 hs

theorem closesElements_rules (d : Dialect) (name : Symbol) :
  (rules d name).beginsWithTag true = true ∧ (rules d name).closesElements false = true
  := by
  cases d <;> cases name <;> exact ⟨rfl, rfl⟩

/-- The tree that a source is read into has its places in order. -/
theorem ordered_of_parse? {d : Dialect} {source : List Char} {t : Tree}
    (h : parse? d source = some t) :
  t.Ordered
  := by
  unfold parse? at h
  split at h
  · rename_i s hrun
    have hbegun : false = true → BeginsWithTag (State.start source).nodes := nofun
    have hs := (leads_of_run hrun).ordered (closesElements_rules d) hbegun rfl
      ⟨Nat.le_refl _, .nil⟩
    apply hs.stacked.ordered t (List.mem_of_mem_head? h)
  · cases h

end Grammar

/-! ### Pages -/

/-- The elements of a tree are collected in document order: the one that the tree builds, if it
builds one, and then those of its children.  If the places in the tree are in order, the lines of
the elements do not decrease, and sorting the headings of the page by line leaves them as they
are. -/
theorem elements_inDocumentOrder :
  (∀ t : Tree, t.elements = t.preorder)
    ∧ (∀ (t : Tree) (e : Element), t.Builds e →
        t.preorder = e :: t.children.flatMap Tree.preorder)
    ∧ (∀ t : Tree, (∀ e, ¬ t.Builds e) → t.preorder = t.children.flatMap Tree.preorder)
    ∧ (∀ t : Tree, t.Ordered → (t.elements.map Element.line).Pairwise (· ≤ ·))
    ∧ ∀ t : Tree, t.Ordered →
        outline (Page.ofTree t).headings
          = (Page.ofTree t).headings.filterMap Element.heading?
  := by
  refine ⟨Tree.elements_eq_preorder, ?_, ?_, ?_, ?_⟩
  · intro t e h
    exact Tree.preorder_of_builds h
  · intro t h
    exact Tree.preorder_of_not_builds h
  · intro t h
    rw [List.pairwise_map, Tree.elements_eq_preorder]
    apply h.lines_preorder.2
  · intro t h
    apply outline_headings_eq
    rw [Page.ofTree, Tree.elements_eq_preorder]
    apply h.lines_preorder.2

/-- Headings in a fragment, one of them in the value of an attribute. -/
theorem elements_inDocumentOrder_fragment :
  ∃ t, Grammar.parse? .tsx
      "const x = <>\n<h2>a</h2>\n<p title=\x7b<h3 />\x7d>\n<h1 /></p></>".toList = some t
    ∧ t.Ordered
    ∧ (t.elements.map Element.line).Pairwise (· ≤ ·)
    ∧ outline (Page.ofTree t).headings = [⟨2, 2⟩, ⟨3, 3⟩, ⟨1, 4⟩]
  := by
  have hheadings : (Grammar.parse? .tsx
      "const x = <>\n<h2>a</h2>\n<p title=\x7b<h3 />\x7d>\n<h1 /></p></>".toList).map
        (fun t => (Page.ofTree t).headings.filterMap Element.heading?)
          = some [⟨2, 2⟩, ⟨3, 3⟩, ⟨1, 4⟩] := by
    decide +kernel
  obtain ⟨t, ht, hlevels⟩ := Option.map_eq_some_iff.mp hheadings
  obtain ⟨-, -, -, hlines, hpage⟩ := elements_inDocumentOrder
  have hordered := Grammar.ordered_of_parse? ht
  exact ⟨t, ht, hordered, hlines t hordered, (hpage t hordered).trans hlevels⟩

end AccessAudit.Markup
