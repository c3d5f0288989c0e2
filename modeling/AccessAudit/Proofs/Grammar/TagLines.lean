import AccessAudit.Markup.Grammar.Parser
import AccessAudit.Proofs.Grammar.Position
import AccessAudit.Proofs.Markup.TagLines

/-!
# Where the grammars find tags

In the grammars a node is closed as a tag only in a scope that begins by reading a `<`.
`Expr.guarded` checks this of an expression, and `Leads.tags` follows it along every reading.  So
the grammars make up a parser that marks tags.
-/

namespace AccessAudit.Markup.Grammar

/-! ### Scopes that begin with a tag -/

variable {σ : Type}

/-- Whether an expression begins by reading a `<`. -/
def Expr.opensTag : Expr σ → Bool
  | .seq (.text ('<' :: _)) _ => true
  | _ => false

/-- Whether an expression closes a scope as a tag only where the scope begins with a `<`.  The flag
says whether the scope in which the expression itself is read does. -/
def Expr.guarded (marked : Bool) : Expr σ → Bool
  | .close kind r _ => marked || (kind != .selfClosing && r != .openTag)
  | .seq a b => a.guarded marked && b.guarded marked
  | .alt a b => a.guarded marked && b.guarded marked
  | .star e => e.guarded marked
  | .scope e => e.guarded e.opensTag
  | .role r e => r != .openTag && e.guarded false
  | _ => true

/-- Where an expression that begins by reading a `<` is read, a `<` is ahead. -/
theorem Leads.rest_of_opensTag {g : σ → Expr σ} {e : Expr σ} {s t : State} (h : Leads g e s t)
    (he : e.opensTag = true) :
  ∃ rest, s.cursor.rest = '<' :: rest
  := by
  unfold Expr.opensTag at he
  split at he
  · cases h with
    | seq ha _ =>
      cases ha with
      | text ahead => exact ⟨_, (Cursor.passes_of_skipText? ahead).rest⟩
  · cases he

/-- A gap holds nothing but comments. -/
theorem eq_comment_of_mem_readGap {mode : GapMode} {comments : List Tree} {newline : Bool}
    {l : List Char} {c : Cursor} (h : ∀ t ∈ comments, ∃ a b, t = comment a b) :
  ∀ t ∈ (readGap mode comments newline l c).comments, ∃ a b, t = comment a b
  := by
  fun_induction readGap mode comments newline l c with
  | case1 | case4 | case5 | case8 | case12 => apply h
  | case2 _ _ _ _ _ _ ih | case3 _ _ _ _ _ ih => apply ih h
  | case6 _ _ _ _ _ ih | case7 _ _ _ _ _ _ ih => apply ih h
  | case11 _ _ _ _ _ _ _ ih | case14 _ _ _ _ _ _ _ _ ih => apply ih h
  | case9 =>
    intro t ht
    cases ht with
    | head => exact ⟨_, _, rfl⟩
    | tail _ ht => apply h t ht
  | case10 _ _ _ _ _ _ _ ih =>
    apply ih
    intro t ht
    cases ht with
    | head => exact ⟨_, _, rfl⟩
    | tail _ ht => apply h t ht
  | case13 _ _ _ _ _ _ _ _ _ ih =>
    apply ih
    intro t ht
    cases ht with
    | head => exact ⟨_, _, rfl⟩
    | tail _ ht => apply h t ht

theorem tags_of_mem_gap {P : Nat → Prop} {c : Cursor} {t : Tree} (h : t ∈ c.gap.comments) :
  t.Tags P
  := by
  obtain ⟨a, b, rfl⟩ := eq_comment_of_mem_readGap (by simp) t h
  refine .node ?_ (by simp)
  rintro (h | h) <;> cases h

/-! ### Readings -/

/-- Readings keep the lines of tags: if all lines of a `<` after some place have a property, so have
all tags that are read after it. -/
theorem Leads.tags {g : σ → Expr σ} {P : Nat → Prop} {origin : Cursor}
    (hP : ∀ c : Cursor, origin.Before c → (∃ rest, c.rest = '<' :: rest) → P c.line)
    (hg : ∀ name, (g name).guarded false = true) {e : Expr σ} {s t : State} (h : Leads g e s t)
    {marked : Bool} (he : e.guarded marked = true) (horigin : origin.Before s.cursor)
    (hopening : marked = true → P s.opening.line) (hnodes : ∀ u ∈ s.nodes, u.Tags P) :
  ∀ u ∈ t.nodes, u.Tags P
  := by
  -- By induction on the reading.  `marked` says that the node being read began at a `<`; it is set
  -- when a scope is entered and asked for when a tag is closed.
  induction h generalizing marked with
  | empty | char | span | text | test | starStop | look | «unless» => apply hnodes
  | gap s =>
    intro u hu
    cases List.mem_append.mp hu with
    | inl hu => apply tags_of_mem_gap hu
    | inr hu => apply hnodes u hu
  | seq ha hb iha ihb =>
    simp only [Expr.guarded, Bool.and_eq_true] at he
    apply ihb he.2 (horigin.trans ha.before.1)
    · rw [ha.before.2]
      apply hopening
    · apply iha he.1 horigin hopening hnodes
  | starNext ha hb iha ihb =>
    apply ihb he (horigin.trans ha.before.1)
    · rw [ha.before.2]
      apply hopening
    · apply iha he horigin hopening hnodes
  | altLeft _ ih =>
    simp only [Expr.guarded, Bool.and_eq_true] at he
    apply ih he.1 horigin hopening hnodes
  | altRight _ ih =>
    simp only [Expr.guarded, Bool.and_eq_true] at he
    apply ih he.2 horigin hopening hnodes
  | scope h ih =>
    intro u hu
    cases List.mem_append.mp hu with
    | inl hu =>
      refine ih he horigin (fun hmark => ?_) (by simp [State.enter]) u hu
      apply hP _ horigin (h.rest_of_opensTag hmark)
    | inr hu => apply hnodes u hu
  | close kind role keep s =>
    intro u hu
    cases List.mem_singleton.mp hu
    refine .node ?_ ?_
    · intro htag
      apply hopening
      rw [Expr.guarded, Bool.or_eq_true, Bool.and_eq_true] at he
      cases he with
      | inl hmarked => apply hmarked
      | inr hno =>
        cases htag with
        | inl hkind => simp [hkind] at hno
        | inr hrole => simp [hrole] at hno
    · intro c hc
      apply hnodes c (List.mem_reverse.mp hc)
  | role h ih =>
    simp only [Expr.guarded, Bool.and_eq_true] at he
    intro u hu
    cases List.mem_append.mp hu with
    | inl hu =>
      obtain ⟨v, hv, rfl⟩ := List.mem_map.mp hu
      have hv := ih he.2 horigin nofun (by simp [State.enter]) v hv
      split
      · apply hv
      · apply hv.withRole (by simpa using he.1)
    | inr hu => apply hnodes u hu
  | rule _ ih => apply ih (hg _) horigin nofun hnodes

theorem guarded_rules (d : Dialect) (name : Symbol) :
  (rules d name).guarded false = true
  := by
  cases d <;> cases name <;> rfl

/-- The tags of the tree that a source is read into have lines on which a `<` stands. -/
theorem tags_of_parse? {d : Dialect} {source : List Char} {t : Tree}
    (h : parse? d source = some t) :
  t.Tags (TagLine source)
  := by
  unfold parse? at h
  split at h
  · rename_i s hrun
    have hP : ∀ c : Cursor, (Cursor.start source).Before c → (∃ rest, c.rest = '<' :: rest) →
        TagLine source c.line := by
      rintro c ⟨w, hw⟩ ⟨rest, hrest⟩
      refine ⟨w, rest, ?_, ?_⟩
      · rw [← hrest]
        apply hw.rest
      · rw [hw.line, Nat.add_comm]
        rfl
    have hguarded : (Expr.node .other (.rule Symbol.program)).guarded false = true := rfl
    apply (leads_of_run hrun).tags hP (guarded_rules d) hguarded (.refl _) nofun nofun t
      (List.mem_of_mem_head? h)
  · cases h

theorem parser_marksTags :
  parser.MarksTags
  := by
  intro d source t h
  apply tags_of_parse? (parse_eq_ok_iff.mp h)

end AccessAudit.Markup.Grammar
