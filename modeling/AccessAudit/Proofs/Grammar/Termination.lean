import AccessAudit.Markup.Grammar.Rules
import AccessAudit.Proofs.Grammar.Position

/-!
# Readings come to an end

A rule that calls itself before it has read anything would never end.  In a grammar where every rule
has a weight, and a rule calls only rules of smaller weight before it has read a character, the
nested steps of a reading are bounded by the length of the text ahead.  `Ranking` collects what has
to be checked of a grammar for this, and `Ranking.run_ne_exhausted` gives the bound.  The grammars
of the two dialects have such weights, so that a source is always read or rejected.
-/

namespace AccessAudit.Markup.Grammar

variable {σ : Type}

/-! ### Expressions that read something -/

/-- Whether an expression reads at least one character wherever it succeeds, given the rules that
do. -/
def Expr.consumes (rules : σ → Bool) : Expr σ → Bool
  | .char _ => true
  | .text w => !w.isEmpty
  | .seq a b => a.consumes rules || b.consumes rules
  | .alt a b => a.consumes rules && b.consumes rules
  | .scope e | .role _ e => e.consumes rules
  | .rule name => rules name
  | _ => false

/-- An expression that reads something leaves less ahead. -/
theorem Leads.length_lt {g : σ → Expr σ} {rules : σ → Bool}
    (hrules : ∀ name, rules name = true → (g name).consumes rules = true)
    {e : Expr σ} {s t : State} (h : Leads g e s t) (he : e.consumes rules = true) :
  t.cursor.rest.length < s.cursor.rest.length
  := by
  induction h with
  | empty | span | gap | test | starStop | starNext | look | «unless» | close => cases he
  | char ahead => apply (Cursor.passes_step ahead).length_lt (List.cons_ne_nil _ _)
  | text ahead =>
    apply (Cursor.passes_of_skipText? ahead).length_lt
    rintro rfl
    cases he
  | seq ha hb iha ihb =>
    rw [Expr.consumes, Bool.or_eq_true] at he
    cases he with
    | inl he => apply Nat.lt_of_le_of_lt hb.length_le (iha he)
    | inr he => apply Nat.lt_of_lt_of_le (ihb he) ha.length_le
  | altLeft _ ih =>
    rw [Expr.consumes, Bool.and_eq_true] at he
    apply ih he.1
  | altRight _ ih =>
    rw [Expr.consumes, Bool.and_eq_true] at he
    apply ih he.2
  | scope _ ih => apply ih he
  | role _ ih => apply ih he
  | rule _ ih => apply ih (hrules _ he)

/-! ### Nested steps -/

/-- The number of nested steps that an expression may take before it has read a character, given the
numbers of the rules. -/
def Expr.reach (rules : σ → Bool) (weight : σ → Nat) : Expr σ → Nat
  | .seq a b =>
    1 + max (a.reach rules weight) (if a.consumes rules then 0 else b.reach rules weight)
  | .alt a b => 1 + max (a.reach rules weight) (b.reach rules weight)
  | .star e | .look e | .unless e | .scope e | .role _ e => 1 + e.reach rules weight
  | .rule name => 1 + weight name
  | _ => 1

/-- Whether no part of an expression that may be read after a character takes more than a number of
nested steps before it has read another one. -/
def Expr.fits (rules : σ → Bool) (weight : σ → Nat) (bound : Nat) : Expr σ → Bool
  | .seq a b =>
    a.fits rules weight bound && b.fits rules weight bound && b.reach rules weight ≤ bound
  | .alt a b => a.fits rules weight bound && b.fits rules weight bound
  | .star e => e.fits rules weight bound && (Expr.star e).reach rules weight ≤ bound
  | .look e | .unless e | .scope e | .role _ e => e.fits rules weight bound
  | _ => true

/-- What has to be known of a grammar for its readings to end. -/
structure Ranking (g : σ → Expr σ) where
  reads : σ → Bool
  weight : σ → Nat
  bound : Nat
  consumes_of_reads : ∀ name, reads name = true → (g name).consumes reads = true
  reach_le : ∀ name, (g name).reach reads weight ≤ weight name
  fits : ∀ name, (g name).fits reads weight bound = true

namespace Ranking

variable {g : σ → Expr σ}

/-- A reading with enough steps for every character ahead comes to an end. -/
theorem run_ne_exhausted (r : Ranking g) {n : Nat} {e : Expr σ} {s : State}
    (he : e.fits r.reads r.weight r.bound = true)
    (hn : s.cursor.rest.length * r.bound + e.reach r.reads r.weight ≤ n) :
  run g n e s ≠ .exhausted
  := by
  -- After a character is read there are steps for any part of the grammar again.
  have again {l m k j : Nat} (hlt : l < m) (hk : k ≤ r.bound) (hj : m * r.bound ≤ j) :
      l * r.bound + k ≤ j := by
    have := Nat.mul_le_mul_right r.bound (Nat.succ_le_of_lt hlt)
    rw [Nat.succ_mul] at this
    omega
  induction n generalizing e s with
  | zero => cases e <;> simp [Expr.reach] at hn
  | succ n ih =>
    cases e with
    | seq a b =>
      simp only [Expr.fits, Bool.and_eq_true, decide_eq_true_eq] at he
      simp only [Expr.reach] at hn
      have ha := ih he.1.1 (s := s) (by omega)
      change (run g n a s).andThen (run g n b) ≠ .exhausted
      cases hrun : run g n a s with
      | exhausted => exact absurd hrun ha
      | fail => nofun
      | ok t =>
        apply ih he.1.2
        have hle := (leads_of_run hrun).length_le
        cases hc : a.consumes r.reads with
        | true =>
          have hlt := (leads_of_run hrun).length_lt r.consumes_of_reads hc
          apply again hlt he.2 (by omega)
        | false =>
          rw [hc, if_neg Bool.false_ne_true] at hn
          have := Nat.mul_le_mul_right r.bound hle
          omega
    | alt a b =>
      simp only [Expr.fits, Bool.and_eq_true] at he
      simp only [Expr.reach] at hn
      have ha := ih he.1 (s := s) (by omega)
      rw [run_alt]
      cases hrun : run g n a s with
      | exhausted => exact absurd hrun ha
      | fail => apply ih he.2 (by omega)
      | ok t => nofun
    | star e =>
      simp only [Expr.fits, Bool.and_eq_true, decide_eq_true_eq] at he
      have hstep := ih he.1 (s := s) (by simp only [Expr.reach] at hn; omega)
      rw [run_star]
      cases hrun : run g n e s with
      | exhausted => exact absurd hrun hstep
      | fail => nofun
      | ok t =>
        simp only
        split
        · nofun
        · obtain ⟨⟨w, hw⟩, -⟩ := (leads_of_run hrun).before
          have hlt : t.cursor.rest.length < s.cursor.rest.length := by
            have := hw.offset_add_length
            omega
          apply ih
          · simp only [Expr.fits, Bool.and_eq_true, decide_eq_true_eq]
            apply he
          · simp only [Expr.reach] at hn
            apply again hlt he.2 (by omega)
    | look e =>
      simp only [Expr.fits] at he
      simp only [Expr.reach] at hn
      have hstep := ih he (s := s) (by omega)
      change (run g n e s).andThen _ ≠ .exhausted
      cases hrun : run g n e s with
      | exhausted => exact absurd hrun hstep
      | fail => nofun
      | ok t => nofun
    | «unless» e =>
      simp only [Expr.fits] at he
      simp only [Expr.reach] at hn
      have hstep := ih he (s := s) (by omega)
      rw [run_unless]
      cases hrun : run g n e s with
      | exhausted => exact absurd hrun hstep
      | fail => nofun
      | ok t => nofun
    | scope e | role _ e =>
      simp only [Expr.fits] at he
      simp only [Expr.reach] at hn
      have hstep := ih he (s := s.enter) (by simp only [State.enter]; omega)
      change (run g n e s.enter).andThen _ ≠ .exhausted
      cases hrun : run g n e s.enter with
      | exhausted => exact absurd hrun hstep
      | fail => nofun
      | ok t => nofun
    | rule name =>
      simp only [Expr.reach] at hn
      apply ih (r.fits name)
      have := r.reach_le name
      omega
    | char test =>
      rw [run_char]
      split
      · split <;> nofun
      · nofun
    | text w =>
      rw [run_text]
      split <;> nofun
    | test holds =>
      rw [run_test]
      split <;> nofun
    | _ => nofun

/-- What cannot be read is rejected. -/
theorem rejects (r : Ranking g) {e : Expr σ} {s : State}
    (he : e.fits r.reads r.weight r.bound = true) (h : ∀ t, ¬ Leads g e s t) :
  Rejects g e s
  := by
  obtain ⟨n, hn⟩ : ∃ n, s.cursor.rest.length * r.bound + e.reach r.reads r.weight ≤ n :=
    ⟨_, Nat.le_refl _⟩
  refine ⟨n, ?_⟩
  cases hrun : run g n e s with
  | ok t => exact absurd (leads_of_run hrun) (h t)
  | fail => rfl
  | exhausted => exact absurd hrun (r.run_ne_exhausted he hn)

end Ranking

/-! ### The grammars of the dialects -/

/-- Whether a rule reads at least one character in both dialects. -/
def Symbol.reads : Symbol → Bool
  | .program | .statement | .declaration | .decorators => false
  | _ => true

/-- A bound on the nested steps of a rule before it has read a character. -/
def Symbol.weight : Symbol → Nat
  | .program => 65
  | .statement => 61
  | .expressions => 45
  | .assignment => 41
  | .operand => 37
  | .postfixed => 33
  | .primary => 29
  | .type => 28
  | .method => 23
  | .indexedType => 21
  | .attribute => 17
  | .declaration | .propertyName => 16
  | .arrow => 15
  | .tagName => 13
  | .pattern => 9
  | .classTail => 8
  | .signature => 6
  | .parameters | .typeParameters | .arguments | .objectType => 3
  | _ => 5

/-- The weights of the rules of a dialect. -/
def ranking (d : Dialect) : Ranking (rules d) where
  reads := Symbol.reads
  weight := Symbol.weight
  bound := 70
  consumes_of_reads name h := by
    cases d <;> cases name <;> first | rfl | cases h
  reach_le name := by
    cases d <;> cases name <;> decide
  fits name := by
    cases d <;> cases name <;> decide

/-- Every source is read or rejected within the number of steps allowed. -/
theorem run_stepLimit_ne_exhausted (d : Dialect) (source : List Char) :
  run (rules d) (stepLimit source) (.node .other (.rule .program)) (.start source) ≠ .exhausted
  := by
  have hreach : (Expr.node .other (.rule .program)).reach Symbol.reads Symbol.weight ≤ 70 := by
    decide
  apply (ranking d).run_ne_exhausted
  · rfl
  · simp only [stepLimit, ranking, State.start, Cursor.start]
    omega

end AccessAudit.Markup.Grammar
