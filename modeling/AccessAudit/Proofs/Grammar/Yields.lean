import AccessAudit.Proofs.Grammar.Beginnings

/-!
# Reading a known text

`Yields g e w r l ts` says what an expression does where the text `w` stands ahead on line `l`, with
`r` after it: it reads `w`, and adds the nodes `ts`, the last one first.  `Bars g e r` says that the
expression is rejected before `r`.  The laws of reading become laws of these two relations, which
mention neither steps nor the scope around the expression.
-/

namespace AccessAudit.Markup.Grammar

variable {σ : Type} {g : σ → Expr σ} {a b e : Expr σ} {v w r : List Char} {l : Nat}
  {ts us : List Tree}

/-- An expression reads a text that stands on a line before another one, and adds nodes. -/
def Yields (g : σ → Expr σ) (e : Expr σ) (w r : List Char) (l : Nat) (ts : List Tree) : Prop :=
  ∀ o opening nodes, Accepts g e ⟨⟨w ++ r, o, l⟩, opening, nodes⟩
    ⟨⟨r, o + w.length, l + w.count '\n'⟩, opening, ts ++ nodes⟩

/-- An expression is rejected before a text. -/
def Bars (g : σ → Expr σ) (e : Expr σ) (r : List Char) : Prop :=
  ∀ s : State, s.cursor.rest = r → Rejects g e s

/-! ### Moving over a text -/

/-- The place after a text that stands ahead. -/
theorem Cursor.Passes.eq_mk {d : Cursor} {o : Nat} (h : (⟨w ++ r, o, l⟩ : Cursor).Passes w d) :
  d = ⟨r, o + w.length, l + w.count '\n'⟩
  := by
  obtain ⟨rest, offset, line⟩ := d
  obtain ⟨hrest, hoffset, hline⟩ := h
  obtain rfl := List.append_cancel_left hrest
  obtain rfl := hoffset
  obtain rfl := hline
  rfl

/-- A text that stands ahead is skipped. -/
@[simp]
theorem Cursor.skipText?_append (w r : List Char) (o l : Nat) :
  Cursor.skipText? w ⟨w ++ r, o, l⟩ = some ⟨r, o + w.length, l + w.count '\n'⟩
  := by
  have hsome : ∀ (w : List Char) (c : Cursor), (∃ r, c.rest = w ++ r) →
      ∃ d, Cursor.skipText? w c = some d := by
    intro w
    induction w with
    | nil => exact fun c _ => ⟨c, rfl⟩
    | cons x w ih =>
      rintro c ⟨r, hc⟩
      rw [skipText?, hc, List.cons_append]
      simp only [if_true]
      exact ih _ ⟨r, rfl⟩
  obtain ⟨d, hd⟩ := hsome w ⟨w ++ r, o, l⟩ ⟨r, rfl⟩
  rw [hd, (passes_of_skipText? hd).eq_mk]

/-! ### Texts that are read -/

namespace Yields

theorem empty :
  Yields g .empty [] r l []
  := fun _ _ _ => .empty

/-- A character of a class. -/
theorem char {p : Char → Bool} {x : Char} (hx : p x = true) :
  Yields g (.char p) [x] r l []
  := by
  intro o opening nodes
  have hstep : (⟨[x] ++ r, o, l⟩ : Cursor).Passes [x] (Cursor.step ⟨[x] ++ r, o, l⟩ x r) :=
    Cursor.passes_step rfl
  refine ⟨1, ?_⟩
  rw [← hstep.eq_mk, run_char]
  exact if_pos hx

/-- All characters of a class up to another one. -/
theorem span {p : Char → Bool} (hw : ∀ x ∈ w, p x = true) (hr : ∀ x ∈ r.head?, p x = false) :
  Yields g (.span p) w r l []
  := by
  intro o opening nodes
  refine ⟨1, ?_⟩
  have hpasses := Cursor.passes_skipWhile p ⟨w ++ r, o, l⟩
  rw [List.takeWhile_append_of_pos hw, takeWhile_eq_nil_of_head? hr, List.append_nil] at hpasses
  rw [← hpasses.eq_mk]
  rfl

theorem text :
  Yields g (.text w) w r l []
  := by
  intro o opening nodes
  refine ⟨1, ?_⟩
  rw [run_text, Cursor.skipText?_append]
  rfl

/-- Blanks before a text without a gap. -/
theorem blanks (hw : w.all isGap = true) (hr : Settled r) :
  Yields g .gap w r l []
  := by
  intro o opening nodes
  obtain ⟨newline, hgap⟩ := gap_blanks hw hr o l
  refine ⟨1, ?_⟩
  change Outcome.ok ⟨(⟨w ++ r, o, l⟩ : Cursor).gap.cursor, opening, _⟩ = _
  rw [hgap]

theorem noGap (hr : Settled r) :
  Yields g .gap [] r l []
  := blanks rfl hr

theorem test {holds : List Char → Bool} (h : holds r = true) :
  Yields g (.test holds) [] r l []
  := fun _ _ _ => .test h

theorem seq (ha : Yields g a v (w ++ r) l ts) (hb : Yields g b w r (l + v.count '\n') us) :
  Yields g (.seq a b) (v ++ w) r l (us ++ ts)
  := by
  intro o opening nodes
  have h := (ha o opening nodes).seq (hb (o + v.length) opening (ts ++ nodes))
  simpa only [List.append_assoc, List.length_append, List.count_append, Nat.add_assoc] using h

theorem after (ha : Yields g a [] (w ++ r) l []) (hb : Yields g b w r l us) :
  Yields g (.seq a b) w r l us
  := by
  have h := ha.seq hb
  rw [List.append_nil] at h
  apply h

theorem before (ha : Yields g a w r l ts) (hb : Yields g b [] r (l + w.count '\n') us) :
  Yields g (.seq a b) w r l (us ++ ts)
  := by
  have h := @seq _ g a b w [] r l ts us ha hb
  rw [List.append_nil] at h
  apply h

theorem afterBlanks (hv : v.all isGap = true) (hsettled : Settled (w ++ r))
    (he : Yields g e w r (l + v.count '\n') ts) :
  Yields g (.seq .gap e) (v ++ w) r l ts
  := by
  have h := (blanks hv hsettled).seq he
  rw [List.append_nil] at h
  apply h

theorem afterGap (hsettled : Settled (w ++ r)) (he : Yields g e w r l ts) :
  Yields g (.seq .gap e) w r l ts
  := afterBlanks (v := []) rfl hsettled he

theorem altLeft (ha : Yields g a w r l ts) :
  Yields g (.alt a b) w r l ts
  := fun o opening nodes => (ha o opening nodes).altLeft

theorem altRight (ha : Bars g a (w ++ r)) (hb : Yields g b w r l ts) :
  Yields g (.alt a b) w r l ts
  := fun o opening nodes => .altRight (ha _ rfl) (hb o opening nodes)

/-- A choice whose first alternatives are rejected. -/
theorem skip {es : List (Expr σ)} (n : Nat) (hbars : ∀ e ∈ es.take n, Bars g e (w ++ r))
    (hes : es.drop n ≠ []) (he : Yields g (.choice (es.drop n)) w r l ts) :
  Yields g (.choice es) w r l ts
  := by
  induction n generalizing es with
  | zero => apply he
  | succ n ih =>
    cases es with
    | nil => exact absurd rfl hes
    | cons e es =>
      have hrest := ih (fun b hb => hbars b (List.mem_cons_of_mem e hb)) hes he
      cases es with
      | nil => exact absurd List.drop_nil hes
      | cons f es => apply altRight (hbars e List.mem_cons_self) hrest

theorem optSome (he : Yields g e w r l ts) :
  Yields g (.opt e) w r l ts
  := he.altLeft

theorem optNone (he : Bars g e r) :
  Yields g (.opt e) [] r l []
  := altRight he empty

theorem starStop (he : Bars g e r) :
  Yields g (.star e) [] r l []
  := fun _ _ _ => .starStop (he _ rfl)

/-- One more repetition. -/
theorem starNext (hv : v ≠ []) (he : Yields g e v (w ++ r) l ts)
    (hrest : Yields g (.star e) w r (l + v.count '\n') us) :
  Yields g (.star e) (v ++ w) r l (us ++ ts)
  := by
  intro o opening nodes
  have hpos := List.length_pos_iff.mpr hv
  have hlt : o < o + v.length := by omega
  have h := (he o opening nodes).starNext hlt (hrest (o + v.length) opening (ts ++ nodes))
  simpa only [List.append_assoc, List.length_append, List.count_append, Nat.add_assoc] using h

theorem starOnce (hw : w ≠ []) (he : Yields g e w r l ts) (hr : Bars g e r) :
  Yields g (.star e) w r l ts
  := by
  have h := @starNext _ g e w [] r l ts [] hw he (starStop hr)
  rw [List.append_nil] at h
  apply h

/-- Characters of a class one by one, up to a text before which the repetition stops. -/
theorem starChars {p : Char → Bool} (hw : ∀ x ∈ w, p x = true)
    (hr : Bars g (.alt (.char p) e) r) :
  Yields g (.star (.alt (.char p) e)) w r l []
  := by
  induction w generalizing l with
  | nil => apply starStop hr
  | cons x w ih =>
    have hx : Yields g (.alt (.char p) e) [x] (w ++ r) l [] :=
      (char (hw x List.mem_cons_self)).altLeft
    apply hx.starNext (List.cons_ne_nil x []) (ih fun y hy => hw y (List.mem_cons_of_mem x hy))

theorem «unless» (he : Bars g e r) :
  Yields g (.unless e) [] r l []
  := fun _ _ _ => .unless (he _ rfl)

theorem scope (he : Yields g e w r l ts) :
  Yields g (.scope e) w r l ts
  := by
  intro o opening nodes
  have h := (he o ⟨w ++ r, o, l⟩ []).scope (s := ⟨⟨w ++ r, o, l⟩, opening, nodes⟩)
  rw [List.append_nil] at h
  apply h

/-- Nodes that are given a role. -/
theorem role {ro : Role} (he : Yields g e w r l ts) :
  Yields g (.role ro e) w r l
    (ts.map fun t => if t.kind == .comment then t else t.withRole ro)
  := by
  intro o opening nodes
  have h := (he o ⟨w ++ r, o, l⟩ []).role (r := ro) (s := ⟨⟨w ++ r, o, l⟩, opening, nodes⟩)
  rw [List.append_nil] at h
  apply h

theorem rule {name : σ} (hname : g name = e) (he : Yields g e w r l ts) :
  Yields g (.rule name) w r l ts
  := fun o opening nodes => .rule (hname ▸ he o opening nodes)

theorem node (kind : Kind) (he : Yields g e w r l ts) :
  Yields g (.node kind e) w r l [.node kind .plain l (l + w.count '\n') "" ts.reverse]
  := by
  intro o opening nodes
  have h := (he o ⟨w ++ r, o, l⟩ []).seq (.close kind .plain false)
  rw [List.append_nil] at h
  apply h.scope (s := ⟨⟨w ++ r, o, l⟩, opening, nodes⟩)

/-- A node around what is read, with its text. -/
theorem leaf (kind : Kind) (he : Yields g e w r l ts) :
  Yields g (.leaf kind e) w r l
    [.node kind .plain l (l + w.count '\n') (String.ofList w) ts.reverse]
  := by
  intro o opening nodes
  have h := (he o ⟨w ++ r, o, l⟩ []).seq (.close kind .plain true)
  have htext : textBetween ⟨w ++ r, o, l⟩ ⟨r, o + w.length, l + w.count '\n'⟩ = String.ofList w :=
    Cursor.Passes.textBetween ⟨rfl, rfl, rfl⟩
  rw [List.append_nil, State.close, if_pos rfl, htext] at h
  apply h.scope (s := ⟨⟨w ++ r, o, l⟩, opening, nodes⟩)

theorem extend (kind : Kind) {tail : Expr σ} (he : Yields g e w r l ts) (htail : Bars g tail r) :
  Yields g (.extend kind e tail) w r l ts
  := by
  have hnone : Yields g (.opt (.seq tail (.close kind .plain false))) [] r (l + w.count '\n') [] :=
    optNone fun s hs => (htail s hs).seqLeft
  apply (he.before hnone).scope

end Yields

/-! ### Scopes that are closed -/

/-- An expression reads a text and closes the scope around it as one node, which is made from the
line where the scope began and from the nodes that were there. -/
def Builds (g : σ → Expr σ) (e : Expr σ) (w r : List Char) (l : Nat)
    (made : Nat → List Tree → Tree) : Prop :=
  ∀ o opening nodes, Accepts g e ⟨⟨w ++ r, o, l⟩, opening, nodes⟩
    ⟨⟨r, o + w.length, l + w.count '\n'⟩, opening, [made opening.line nodes]⟩

namespace Builds

variable {made more : Nat → List Tree → Tree}

theorem close (kind : Kind) (role : Role) :
  Builds g (.close kind role false) [] r l
    fun first nodes => .node kind role first l "" nodes.reverse
  := fun _ _ _ => .close kind role false

theorem after (ha : Yields g a v (w ++ r) l ts) (hb : Builds g b w r (l + v.count '\n') made) :
  Builds g (.seq a b) (v ++ w) r l fun first nodes => made first (ts ++ nodes)
  := by
  intro o opening nodes
  have h := (ha o opening nodes).seq (hb (o + v.length) opening (ts ++ nodes))
  simpa only [List.append_assoc, List.length_append, List.count_append, Nat.add_assoc] using h

theorem thenClose (ha : Yields g a w r l ts) (kind : Kind) (role : Role) :
  Builds g (.seq a (.close kind role false)) w r l
    fun first nodes => .node kind role first (l + w.count '\n') "" (ts ++ nodes).reverse
  := fun o opening nodes => (ha o opening nodes).seq (.close kind role false)

theorem seq (ha : Builds g a v (w ++ r) l made) (hb : Builds g b w r (l + v.count '\n') more) :
  Builds g (.seq a b) (v ++ w) r l fun first nodes => more first [made first nodes]
  := by
  intro o opening nodes
  have h := (ha o opening nodes).seq (hb (o + v.length) opening _)
  simpa only [List.append_assoc, List.length_append, List.count_append, Nat.add_assoc] using h

theorem altLeft (ha : Builds g a w r l made) :
  Builds g (.alt a b) w r l made
  := fun o opening nodes => (ha o opening nodes).altLeft

theorem altRight (ha : Bars g a (w ++ r)) (hb : Builds g b w r l made) :
  Builds g (.alt a b) w r l made
  := fun o opening nodes => .altRight (ha _ rfl) (hb o opening nodes)

theorem scope (he : Builds g e w r l made) :
  Yields g (.scope e) w r l [made l []]
  := fun o opening nodes =>
    (he o ⟨w ++ r, o, l⟩ []).scope (s := ⟨⟨w ++ r, o, l⟩, opening, nodes⟩)

end Builds

/-! ### Texts that are rejected -/

namespace Bars

/-- A text that does not stand ahead. -/
theorem text (h : w.isPrefixOf r = false) :
  Bars g (.text w) r
  := by
  intro s hs
  refine ⟨1, ?_⟩
  rw [run_text]
  split
  · rename_i c hc
    have hpre : w <+: r := ⟨c.rest, by rw [← hs, (Cursor.passes_of_skipText? hc).rest]⟩
    rw [List.isPrefixOf_iff_prefix.mpr hpre] at h
    cases h
  · rfl

theorem seqLeft (ha : Bars g a r) :
  Bars g (.seq a b) r
  := fun s hs => (ha s hs).seqLeft

theorem seqRight (ha : ∀ l, ∃ ts, Yields g a v r l ts) (hb : Bars g b r) :
  Bars g (.seq a b) (v ++ r)
  := by
  rintro ⟨⟨rest, o, l⟩, opening, nodes⟩ rfl
  obtain ⟨ts, ha⟩ := ha l
  exact .seqRight (ha o opening nodes) (hb _ rfl)

theorem alt (ha : Bars g a r) (hb : Bars g b r) :
  Bars g (.alt a b) r
  := fun s hs => .alt (ha s hs) (hb s hs)

theorem look (he : Bars g e r) :
  Bars g (.look e) r
  := fun s hs => (he s hs).look

theorem scope (he : Bars g e r) :
  Bars g (.scope e) r
  := fun s hs => .scope (he s.enter hs)

theorem rule {name : σ} (hname : g name = e) (he : Bars g e r) :
  Bars g (.rule name) r
  := fun s hs => .rule (hname ▸ he s hs)

theorem afterBlanks (hw : w.all isGap = true) (hr : Settled r) (he : Bars g e r) :
  Bars g (.seq .gap e) (w ++ r)
  := seqRight (fun _ => ⟨[], .blanks hw hr⟩) he

end Bars

theorem Ahead.bars {d : Dialect} (x : Ahead) {e : Expr Symbol} (he : x.excludes d e = true) :
  Bars (rules d) e x.rest
  := fun _ hs => x.rejects he hs

theorem Ahead.bars_of_mem {d : Dialect} (x : Ahead) {es : List (Expr Symbol)}
    (hes : es.all (x.excludes d) = true) :
  ∀ e ∈ es, Bars (rules d) e x.rest
  := fun e he => x.bars (List.all_eq_true.mp hes e he)

end AccessAudit.Markup.Grammar
