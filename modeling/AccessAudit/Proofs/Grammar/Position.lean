import AccessAudit.Proofs.Grammar.Reading

/-!
# Places in a source

Reading only moves forward.  `Cursor.Passes c w d` says that the place `d` comes after the place `c`
and that the text `w` stands between them; the number of characters and the line of `d` are then
those of `c`, advanced by `w`.  Every move of the interpreter passes some text, so every place that
it reaches from the beginning of a source has the line that the line feeds before it give it.
-/

namespace AccessAudit.Markup.Grammar

/-! ### Passing a text -/

/-- The place `d` follows the place `c`, with the text `w` between them. -/
structure Cursor.Passes (c : Cursor) (w : List Char) (d : Cursor) : Prop where
  rest : c.rest = w ++ d.rest
  offset : d.offset = c.offset + w.length
  line : d.line = c.line + w.count '\n'

namespace Cursor

variable {c d e : Cursor} {v w : List Char}

theorem Passes.refl (c : Cursor) :
  c.Passes [] c
  := ⟨rfl, rfl, rfl⟩

theorem Passes.trans (h : c.Passes v d) (h' : d.Passes w e) :
  c.Passes (v ++ w) e
  := by
  constructor
  · rw [h.rest, h'.rest, List.append_assoc]
  · rw [h'.offset, h.offset, List.length_append, Nat.add_assoc]
  · rw [h'.line, h.line, List.count_append, Nat.add_assoc]

theorem passes_step {x : Char} {rest : List Char} (h : c.rest = x :: rest) :
  c.Passes [x] (c.step x rest)
  := by
  refine ⟨h, rfl, ?_⟩
  by_cases hx : x = '\n'
  · simp [step, hx]
  · simp [step, hx, List.count_cons_of_ne]

/-- Skipping characters of a class passes all of them that are ahead. -/
theorem passes_skipWhile (test : Char → Bool) (c : Cursor) :
  c.Passes (c.rest.takeWhile test) (c.skipWhile test)
  := by
  suffices h : ∀ l (c : Cursor), c.rest = l →
      c.Passes (l.takeWhile test) (skipWhile.go test l c) from h c.rest c rfl
  intro l
  induction l with
  | nil =>
    intro c _
    exact .refl c
  | cons x l ih =>
    intro c hc
    rw [skipWhile.go, List.takeWhile_cons]
    split
    · exact (passes_step hc).trans (ih _ rfl)
    · exact .refl c

/-- Skipping a text passes it. -/
theorem passes_of_skipText? (h : c.skipText? w = some d) :
  c.Passes w d
  := by
  induction w generalizing c with
  | nil =>
    cases h
    exact .refl _
  | cons x w ih =>
    rw [skipText?] at h
    split at h
    · split at h
      · subst x
        apply (passes_step ‹_›).trans (ih h)
      · cases h
    · cases h

theorem Passes.length_le (h : c.Passes w d) :
  d.rest.length ≤ c.rest.length
  := by
  rw [h.rest, List.length_append]
  omega

theorem Passes.length_lt (h : c.Passes w d) (hw : w ≠ []) :
  d.rest.length < c.rest.length
  := by
  have := List.length_pos_iff.mpr hw
  rw [h.rest, List.length_append]
  omega

theorem Passes.offset_add_length (h : c.Passes w d) :
  d.offset + d.rest.length = c.offset + c.rest.length
  := by
  rw [h.rest, h.offset, List.length_append]
  omega

theorem Passes.textBetween (h : c.Passes w d) :
  textBetween c d = String.ofList w
  := by
  rw [Grammar.textBetween, h.rest, h.offset]
  simp

/-- The place `d` is the place `c` or comes after it. -/
def Before (c d : Cursor) : Prop :=
  ∃ w, c.Passes w d

theorem Before.refl (c : Cursor) :
  c.Before c
  := ⟨[], .refl c⟩

theorem Before.trans (h : c.Before d) (h' : d.Before e) :
  c.Before e
  := by
  obtain ⟨v, hv⟩ := h
  obtain ⟨w, hw⟩ := h'
  exact ⟨v ++ w, hv.trans hw⟩

theorem before_step {x : Char} {rest : List Char} (h : c.rest = x :: rest) :
  c.Before (c.step x rest)
  := ⟨[x], passes_step h⟩

end Cursor

/-! ### Gaps -/

/-- The place from which a gap is read again if the comment that was begun is not one. -/
def GapMode.anchor (c : Cursor) : GapMode → Cursor
  | .blank => c
  | .slash opening | .line opening | .block opening _ => opening

/-- The next token is not before the place from which a gap is read. -/
theorem before_readGap (mode : GapMode) (comments : List Tree) (newline : Bool) (l : List Char)
    (c : Cursor) (hc : c.rest = l) (h : (mode.anchor c).Before c) :
  (mode.anchor c).Before (readGap mode comments newline l c).cursor
  := by
  fun_induction readGap mode comments newline l c with
  | case1 | case4 | case5 | case8 | case12 => exact .refl _
  | case9 => apply h
  | case2 _ _ _ _ _ _ ih => exact (Cursor.before_step hc).trans (ih rfl (.refl _))
  | case3 _ _ _ _ _ ih => exact ih rfl (Cursor.before_step hc)
  | case6 _ _ _ _ _ ih => exact ih rfl (h.trans (Cursor.before_step hc))
  | case7 _ _ _ _ _ _ ih => exact ih rfl (h.trans (Cursor.before_step hc))
  | case10 _ _ _ _ _ _ _ ih =>
    exact (h.trans (Cursor.before_step hc)).trans (ih rfl (.refl _))
  | case11 _ _ _ _ _ _ _ ih => exact ih rfl (h.trans (Cursor.before_step hc))
  | case13 _ _ _ _ _ _ _ _ _ ih =>
    exact (h.trans (Cursor.before_step hc)).trans (ih rfl (.refl _))
  | case14 _ _ _ _ _ _ _ _ ih => exact ih rfl (h.trans (Cursor.before_step hc))

theorem Cursor.before_gap (c : Cursor) :
  c.Before c.gap.cursor
  := before_readGap .blank [] false c.rest c rfl (.refl c)

/-! ### Readings -/

variable {σ : Type} {g : σ → Expr σ} {e : Expr σ} {s t : State}

/-- Reading moves forward and stays in its scope. -/
theorem Leads.before (h : Leads g e s t) :
  s.cursor.Before t.cursor ∧ t.opening = s.opening
  := by
  induction h with
  | empty | test | starStop | look | «unless» | close => exact ⟨.refl _, rfl⟩
  | char ahead => exact ⟨Cursor.before_step ahead, rfl⟩
  | span test s => exact ⟨⟨_, Cursor.passes_skipWhile test s.cursor⟩, rfl⟩
  | text ahead => exact ⟨⟨_, Cursor.passes_of_skipText? ahead⟩, rfl⟩
  | gap s => exact ⟨s.cursor.before_gap, rfl⟩
  | seq _ _ ih ih' => exact ⟨ih.1.trans ih'.1, ih'.2.trans ih.2⟩
  | starNext _ _ ih ih' => exact ⟨ih.1.trans ih'.1, ih'.2.trans ih.2⟩
  | altLeft _ ih => apply ih
  | altRight _ ih => apply ih
  | scope _ ih => exact ⟨ih.1, rfl⟩
  | role _ ih => exact ⟨ih.1, rfl⟩
  | rule _ ih => apply ih

theorem Leads.length_le (h : Leads g e s t) :
  t.cursor.rest.length ≤ s.cursor.rest.length
  := by
  obtain ⟨⟨w, hw⟩, -⟩ := h.before
  apply hw.length_le

theorem Leads.rest_isSuffix (h : Leads g e s t) :
  t.cursor.rest <:+ s.cursor.rest
  := by
  obtain ⟨⟨w, hw⟩, -⟩ := h.before
  exact ⟨w, hw.rest.symm⟩

end AccessAudit.Markup.Grammar
