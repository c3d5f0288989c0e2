import AccessAudit.Proofs.Grammar.Outcome
import AccessAudit.Proofs.Grammar.Termination
import AccessAudit.Proofs.Text.Alphanumeric

/-!
# What may begin at a place

Most alternatives of a choice are rejected by the first character or the first word ahead.
`Expr.canBegin` decides this from what is known about the text ahead, following rules to some depth;
if it says no, the expression is rejected.  Another reason for a rejection is that a character which
has to be read does not stand anywhere ahead: `Expr.needs`.
-/

namespace AccessAudit.Markup.Grammar

open Text

/-! ### Gaps that are empty -/

/-- A text at whose beginning no blank and no comment stands. -/
def Settled (s : List Char) : Prop :=
  ∀ (c : Cursor) (newline : Bool), c.rest = s →
    readGap .blank [] newline s c = ⟨c, [], newline⟩

theorem Settled.gap_eq {c : Cursor} (h : Settled c.rest) :
  c.gap = ⟨c, [], false⟩
  := h c false rfl

theorem settled_nil :
  Settled []
  := by
  intro c newline _
  rw [readGap]

theorem settled_cons {x : Char} {s : List Char} (hgap : isGap x = false) (hslash : x ≠ '/') :
  Settled (x :: s)
  := by
  intro c newline _
  rw [readGap, if_neg (by rw [hgap]; exact Bool.false_ne_true), if_neg hslash]

theorem settled_slash {x : Char} {s : List Char} (hslash : x ≠ '/') (hstar : x ≠ '*') :
  Settled ('/' :: x :: s)
  := by
  intro c newline _
  have hgap : isGap '/' = false := by decide
  rw [readGap, if_neg (by rw [hgap]; exact Bool.false_ne_true), if_pos rfl, readGap,
    if_neg hslash, if_neg hstar]

/-- Blanks before a text without a gap are the gap. -/
theorem gap_blanks {w r : List Char} (hw : w.all isGap = true) (hr : Settled r)
    (o l : Nat) :
  ∃ newline, (⟨w ++ r, o, l⟩ : Cursor).gap
    = ⟨⟨r, o + w.length, l + w.count '\n'⟩, [], newline⟩
  := by
  suffices h : ∀ newline, ∃ newline', readGap .blank [] newline (w ++ r) ⟨w ++ r, o, l⟩
      = ⟨⟨r, o + w.length, l + w.count '\n'⟩, [], newline'⟩ from h false
  induction w generalizing o l with
  | nil => exact fun newline => ⟨newline, hr _ newline rfl⟩
  | cons x w ih =>
    intro newline
    rw [List.all_cons, Bool.and_eq_true] at hw
    have hstep := Cursor.passes_step (c := ⟨x :: (w ++ r), o, l⟩) rfl
    obtain ⟨newline', h⟩ := ih hw.2 (o + 1) (l + [x].count '\n') (newline || isLineBreak x)
    refine ⟨newline', ?_⟩
    have hcursor : Cursor.step ⟨x :: (w ++ r), o, l⟩ x (w ++ r)
        = ⟨w ++ r, o + 1, l + [x].count '\n'⟩ := by
      rw [← hstep.line]
      rfl
    have hcount : (x :: w).count '\n' = [x].count '\n' + w.count '\n' := by
      rw [← List.count_append, List.singleton_append]
    rw [List.cons_append, readGap, if_pos hw.1, hcursor, h, List.length_cons,
      hcount]
    simp only [Nat.add_assoc, Nat.add_comm w.length 1]

/-! ### The text ahead -/

/-- A text ahead of a place, and what is known about its beginning. -/
structure Ahead where
  rest : List Char
  firsts : List Char
  absent : List (List Char)
  first_mem : ∀ c ∈ rest.head?, c ∈ firsts
  word_not_mem : rest.takeWhile Char.isAlphanum ∉ absent
  settled : Settled rest

theorem takeWhile_eq_nil_of_head? {p : Char → Bool} {s : List Char}
    (h : ∀ x ∈ s.head?, p x = false) :
  s.takeWhile p = []
  := by
  cases s with
  | nil => rfl
  | cons x s => rw [List.takeWhile_cons, h x rfl, if_neg Bool.false_ne_true]

/-- The end of a source. -/
def Ahead.nil : Ahead where
  rest := []
  firsts := []
  absent := []
  first_mem := nofun
  word_not_mem := nofun
  settled := settled_nil

/-- A text after a character that is no blank and no slash. -/
def Ahead.cons (x : Char) (s : List Char) (hgap : isGap x = false) (hslash : x ≠ '/') : Ahead where
  rest := x :: s
  firsts := [x]
  absent := []
  first_mem _ hc := List.mem_singleton.mpr (Option.some.inj hc).symm
  word_not_mem := nofun
  settled := settled_cons hgap hslash

/-- A text after a slash that does not open a comment. -/
def Ahead.slash (x : Char) (s : List Char) (hslash : x ≠ '/') (hstar : x ≠ '*') : Ahead where
  rest := '/' :: x :: s
  firsts := ['/']
  absent := []
  first_mem _ hc := List.mem_singleton.mpr (Option.some.inj hc).symm
  word_not_mem := nofun
  settled := settled_slash hslash hstar

/-! ### Expressions that may begin at a place -/

variable {σ : Type}

/-- Whether an expression is a word that is not ahead, and what must not follow the word. -/
def Expr.isAbsent (a : Ahead) : Expr σ → Bool
  | .seq (.text w) (.unless (.char part)) =>
    a.absent.contains w && w.all Char.isAlphanum && alphanums.all part
  | _ => false

/-- Whether an expression may be read at a place about which something is known.  The flag says
whether what follows the expression may be read at the same place. -/
def Expr.canBegin (a : Ahead) (rules : σ → Bool → Bool) : Expr σ → Bool → Bool
  | .empty, next => next
  | .char p, _ => a.firsts.any p
  | .span p, next => a.firsts.any p || next
  | .text [], next => next
  | .text (x :: _), _ => a.firsts.contains x
  | .gap, next => next
  | .test holds, next => next && holds a.rest
  | .seq e f, next =>
    !(Expr.seq e f).isAbsent a && e.canBegin a rules (f.canBegin a rules next)
  | .alt e f, next => e.canBegin a rules next || f.canBegin a rules next
  | .star e, next => e.canBegin a rules false || next
  | .look e, next => e.canBegin a rules true && next
  | .unless _, next => next
  | .scope e, next => e.canBegin a rules next
  | .close _ _ _, next => next
  | .role _ e, next => e.canBegin a rules next
  | .rule name, next => rules name next

/-- Whether a rule may be read at a place, followed to some depth. -/
def ruleCanBegin (g : σ → Expr σ) (a : Ahead) : Nat → σ → Bool → Bool
  | 0, _, _ => true
  | n + 1, name, next => (g name).canBegin a (ruleCanBegin g a n) next

/-- A word that is not ahead is not read. -/
theorem Leads.not_isAbsent {g : σ → Expr σ} {a : Ahead} {e : Expr σ} {s t : State}
    (h : Leads g e s t) (ha : s.cursor.rest = a.rest) :
  e.isAbsent a = false
  := by
  rw [← Bool.not_eq_true]
  intro habsent
  unfold Expr.isAbsent at habsent
  split at habsent
  · rename_i w part
    simp only [Bool.and_eq_true, List.contains_iff_mem] at habsent
    obtain ⟨⟨hmem, hword⟩, hpart⟩ := habsent
    cases h with
    | seq htext hunless =>
      cases htext with
      | @text _ _ c ahead =>
        cases hunless with
        | «unless» hrejects =>
          -- The word ends where it was read, for no letter or digit follows it.
          have hnone : c.rest.takeWhile Char.isAlphanum = [] := by
            apply takeWhile_eq_nil_of_head?
            intro x hx
            rw [← Bool.not_eq_true]
            intro hx'
            have := rejects_char_iff.mp hrejects x hx
            rw [List.all_eq_true.mp hpart x (mem_alphanums hx')] at this
            cases this
          have hend : s.cursor.rest.takeWhile Char.isAlphanum = w := by
            rw [(Cursor.passes_of_skipText? ahead).rest,
              List.takeWhile_append_of_pos (List.all_eq_true.mp hword)]
            rw [hnone, List.append_nil]
          apply a.word_not_mem
          rw [← ha, hend]
          apply hmem
  · cases habsent

/-- If an expression is read at a place about which something is known, it may begin there. -/
theorem Leads.canBegin {g : σ → Expr σ} {a : Ahead} {e : Expr σ} {s t : State} (h : Leads g e s t)
    (ha : s.cursor.rest = a.rest) (n : Nat) {next : Bool}
    (hnext : t.cursor.rest = s.cursor.rest → next = true) :
  e.canBegin a (ruleCanBegin g a n) next = true
  := by
  -- By induction on the reading.  `next` says whether what comes behind may begin at the place,
  -- which matters only for readings that stay there.
  induction h generalizing n next with
  | empty | «unless» | close => exact hnext rfl
  | test holds =>
    rw [Expr.canBegin, Bool.and_eq_true, ← ha]
    exact ⟨hnext rfl, holds⟩
  | @char p s x rest ahead holds =>
    rw [Expr.canBegin, List.any_eq_true]
    exact ⟨x, a.first_mem x (by rw [← ha, ahead]; rfl), holds⟩
  | span p s =>
    rw [Expr.canBegin, Bool.or_eq_true, List.any_eq_true]
    have hpasses := Cursor.passes_skipWhile p s.cursor
    cases htaken : s.cursor.rest.takeWhile p with
    | nil =>
      rw [htaken] at hpasses
      exact .inr (hnext hpasses.rest.symm)
    | cons x taken =>
      rw [htaken] at hpasses
      have hx : x ∈ s.cursor.rest.takeWhile p := by
        rw [htaken]
        apply List.mem_cons_self
      refine .inl ⟨x, a.first_mem x ?_, List.all_eq_true.mp List.all_takeWhile x hx⟩
      rw [← ha, hpasses.rest]
      rfl
  | @text w s c ahead =>
    cases w with
    | nil =>
      cases ahead
      exact hnext rfl
    | cons x w =>
      rw [Expr.canBegin, List.contains_iff_mem]
      apply a.first_mem
      rw [← ha, (Cursor.passes_of_skipText? ahead).rest]
      rfl
  | gap s =>
    rw [Expr.canBegin]
    apply hnext
    rw [Settled.gap_eq (ha ▸ a.settled)]
  | @seq e f s t u he hf ihe ihf =>
    rw [Expr.canBegin, Bool.and_eq_true, Bool.not_eq_true']
    refine ⟨(Leads.seq he hf).not_isAbsent ha, ?_⟩
    apply ihe ha
    intro hstays
    apply ihf (hstays.trans ha)
    intro hrest
    apply hnext (hrest.trans hstays)
  | altLeft _ ih =>
    rw [Expr.canBegin, Bool.or_eq_true]
    exact .inl (ih ha n hnext)
  | altRight _ ih =>
    rw [Expr.canBegin, Bool.or_eq_true]
    exact .inr (ih ha n hnext)
  | starStop e s =>
    rw [Expr.canBegin, hnext rfl, Bool.or_true]
  | @starNext e s t u he hstar ihe ihstar =>
    by_cases hstays : t.cursor.rest = s.cursor.rest
    · apply ihstar (hstays.trans ha) n fun hrest => hnext (hrest.trans hstays)
    · rw [Expr.canBegin, Bool.or_eq_true]
      exact .inl (ihe ha n fun h => absurd h hstays)
  | look _ ih =>
    rw [Expr.canBegin, Bool.and_eq_true]
    exact ⟨ih ha n fun _ => rfl, hnext rfl⟩
  | scope _ ih => apply ih ha n hnext
  | role _ ih => apply ih ha n hnext
  | rule _ ih =>
    cases n with
    | zero => rfl
    | succ n => apply ih ha n hnext

/-- Whether an expression of a dialect is excluded by what is known about the text ahead.  Rules are
followed twelve deep. -/
def Ahead.excludes (d : Dialect) (a : Ahead) (e : Expr Symbol) : Bool :=
  !e.canBegin a (ruleCanBegin (rules d) a 12) true && e.fits Symbol.reads Symbol.weight 70

/-- What is excluded is rejected. -/
theorem Ahead.rejects {d : Dialect} (a : Ahead) {e : Expr Symbol} (he : a.excludes d e = true)
    {s : State} (ha : s.cursor.rest = a.rest) :
  Rejects (rules d) e s
  := by
  rw [Ahead.excludes, Bool.and_eq_true, Bool.not_eq_true'] at he
  apply (ranking d).rejects he.2
  intro t h
  have hbegins := h.canBegin ha 12 fun _ => rfl
  rw [he.1] at hbegins
  cases hbegins

/-! ### Expressions that need a character -/

/-- Whether an expression is read only where a character stands somewhere ahead, if some rules
are. -/
def Expr.needs (c : Char) (rules : σ → Bool) : Expr σ → Bool
  | .text w => w.contains c
  | .seq e f => e.needs c rules || f.needs c rules
  | .alt e f => e.needs c rules && f.needs c rules
  | .look e | .scope e | .role _ e => e.needs c rules
  | .rule name => rules name
  | _ => false

/-- A character that is needed stands ahead. -/
theorem Leads.mem_of_needs {g : σ → Expr σ} {c : Char} {rules : σ → Bool}
    (hrules : ∀ name, rules name = true → (g name).needs c rules = true) {e : Expr σ} {s t : State}
    (h : Leads g e s t) (he : e.needs c rules = true) :
  c ∈ s.cursor.rest
  := by
  induction h with
  | text ahead =>
    rw [Expr.needs, List.contains_iff_mem] at he
    rw [(Cursor.passes_of_skipText? ahead).rest]
    apply List.mem_append_left _ he
  | seq he' _ ihe ihf =>
    rw [Expr.needs, Bool.or_eq_true] at he
    cases he with
    | inl he => apply ihe he
    | inr he => apply he'.rest_isSuffix.mem (ihf he)
  | altLeft _ ih =>
    rw [Expr.needs, Bool.and_eq_true] at he
    apply ih he.1
  | altRight _ ih =>
    rw [Expr.needs, Bool.and_eq_true] at he
    apply ih he.2
  | look _ ih | scope _ ih | role _ ih => apply ih he
  | rule _ ih => apply ih (hrules _ he)
  | _ => cases he

end AccessAudit.Markup.Grammar
