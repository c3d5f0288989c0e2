import AccessAudit.Markup.Grammar.Engine

/-!
# What reading an expression can do

`Leads g e s t` says that reading the expression `e` from the state `s` may end in the state `t`.
It has one rule for each way in which an expression can succeed, and forgets why an alternative was
not taken.  What holds along all its rules holds of every successful run of the interpreter.  More
steps never change an outcome that was reached, so that an expression is accepted or rejected if
some number of steps shows it.
-/

namespace AccessAudit.Markup.Grammar

variable {σ : Type} {g : σ → Expr σ}

/-! ### Steps that branch -/

section

variable {n : Nat} {a b e : Expr σ} {s : State}

theorem run_char {test : Char → Bool} :
  run g (n + 1) (.char test) s
    = match s.cursor.rest with
      | x :: rest => if test x then .ok (s.moveTo (s.cursor.step x rest)) else .fail
      | [] => .fail
  := rfl

theorem run_text {w : List Char} :
  run g (n + 1) (.text w) s
    = match s.cursor.skipText? w with
      | some c => .ok (s.moveTo c)
      | none => .fail
  := rfl

theorem run_test {holds : List Char → Bool} :
  run g (n + 1) (.test holds) s = if holds s.cursor.rest then .ok s else .fail
  := rfl

theorem run_alt :
  run g (n + 1) (.alt a b) s
    = match run g n a s with
      | .fail => run g n b s
      | outcome => outcome
  := rfl

theorem run_star :
  run g (n + 1) (.star e) s
    = match run g n e s with
      | .ok t => if t.cursor.offset ≤ s.cursor.offset then .ok s else run g n (.star e) t
      | .fail => .ok s
      | .exhausted => .exhausted
  := rfl

theorem run_unless :
  run g (n + 1) (.unless e) s
    = match run g n e s with
      | .ok _ => .fail
      | .fail => .ok s
      | .exhausted => .exhausted
  := rfl

end

/-! ### Successful readings -/

/-- Some number of steps shows that an expression leads from one state to another. -/
def Accepts (g : σ → Expr σ) (e : Expr σ) (s t : State) : Prop :=
  ∃ n, run g n e s = .ok t

/-- Some number of steps shows that an expression cannot be read from a state. -/
def Rejects (g : σ → Expr σ) (e : Expr σ) (s : State) : Prop :=
  ∃ n, run g n e s = .fail

/-- Reading an expression may lead from one state to another. -/
inductive Leads (g : σ → Expr σ) : Expr σ → State → State → Prop where
  | empty (s) : Leads g .empty s s
  | char {test s x rest} (ahead : s.cursor.rest = x :: rest) (holds : test x = true) :
    Leads g (.char test) s (s.moveTo (s.cursor.step x rest))
  | span (test s) : Leads g (.span test) s (s.moveTo (s.cursor.skipWhile test))
  | text {w s c} (ahead : s.cursor.skipText? w = some c) : Leads g (.text w) s (s.moveTo c)
  | gap (s) : Leads g .gap s ⟨s.cursor.gap.cursor, s.opening, s.cursor.gap.comments ++ s.nodes⟩
  | test {holds s} (ahead : holds s.cursor.rest = true) : Leads g (.test holds) s s
  | seq {a b s t u} : Leads g a s t → Leads g b t u → Leads g (.seq a b) s u
  | altLeft {a b s t} : Leads g a s t → Leads g (.alt a b) s t
  | altRight {a b s t} : Leads g b s t → Leads g (.alt a b) s t
  | starStop (e s) : Leads g (.star e) s s
  | starNext {e s t u} : Leads g e s t → Leads g (.star e) t u → Leads g (.star e) s u
  | look {e s t} : Leads g e s t → Leads g (.look e) s s
  | unless {e s} (absent : Rejects g e s) : Leads g (.unless e) s s
  | scope {e s t} : Leads g e s.enter t → Leads g (.scope e) s (s.leave t)
  | close (kind role keep s) : Leads g (.close kind role keep) s (s.close kind role keep)
  | role {r e s t} : Leads g e s.enter t → Leads g (.role r e) s (s.leaveAs r t)
  | rule {name s t} : Leads g (g name) s t → Leads g (.rule name) s t

theorem Outcome.andThen_eq_ok {o : Outcome} {next : State → Outcome} {u : State} :
  o.andThen next = .ok u ↔ ∃ t, o = .ok t ∧ next t = .ok u
  := by
  cases o <;> simp [Outcome.andThen]

/-- A successful run is a successful reading. -/
theorem leads_of_run {n : Nat} {e : Expr σ} {s t : State} (h : run g n e s = .ok t) :
  Leads g e s t
  := by
  -- The run has as many steps as are needed, so the induction is on them; the grammar is not
  -- structural.
  induction n generalizing e s t with
  | zero => cases h
  | succ n ih =>
    cases e with
    | empty =>
      cases h
      exact .empty s
    | char test =>
      rw [run_char] at h
      split at h
      · split at h
        · cases h
          exact .char ‹_› ‹_›
        · cases h
      · cases h
    | span test =>
      cases h
      exact .span test s
    | text w =>
      rw [run_text] at h
      split at h
      · cases h
        exact .text ‹_›
      · cases h
    | gap =>
      cases h
      exact .gap s
    | test holds =>
      rw [run_test] at h
      split at h
      · cases h
        exact .test ‹_›
      · cases h
    | seq a b =>
      obtain ⟨u, ha, hb⟩ := Outcome.andThen_eq_ok.mp h
      exact .seq (ih ha) (ih hb)
    | alt a b =>
      rw [run_alt] at h
      split at h
      · exact .altRight (ih h)
      · exact .altLeft (ih h)
    | star e =>
      rw [run_star] at h
      split at h
      · split at h
        · cases h
          exact .starStop e s
        · exact .starNext (ih ‹_›) (ih h)
      · cases h
        exact .starStop e s
      · cases h
    | look e =>
      obtain ⟨u, he, hu⟩ := Outcome.andThen_eq_ok.mp h
      cases hu
      exact .look (ih he)
    | «unless» e =>
      rw [run_unless] at h
      split at h
      · cases h
      · cases h
        exact .unless ⟨n, ‹_›⟩
      · cases h
    | scope e =>
      obtain ⟨u, he, hu⟩ := Outcome.andThen_eq_ok.mp h
      cases hu
      exact .scope (ih he)
    | close kind role keep =>
      cases h
      exact .close kind role keep s
    | role r e =>
      obtain ⟨u, he, hu⟩ := Outcome.andThen_eq_ok.mp h
      cases hu
      exact .role (ih he)
    | rule name => exact .rule (ih h)

/-! ### More steps -/

theorem Outcome.ne_exhausted_of_andThen {o : Outcome} {next : State → Outcome}
    (h : o.andThen next ≠ .exhausted) :
  o ≠ .exhausted
  := by
  rintro rfl
  exact h rfl

/-- Outcomes with the same first part agree if their second parts do where it succeeds. -/
theorem Outcome.andThen_congr {o : Outcome} {next next' : State → Outcome}
    (h : ∀ t, o = .ok t → next t = next' t) :
  o.andThen next = o.andThen next'
  := by
  cases o with
  | ok t => exact h t rfl
  | fail => rfl
  | exhausted => rfl

/-- One more step keeps an outcome that was reached. -/
theorem run_succ {n : Nat} {e : Expr σ} {s : State} (h : run g n e s ≠ .exhausted) :
  run g (n + 1) e s = run g n e s
  := by
  induction n generalizing e s with
  | zero => exact absurd rfl h
  | succ n ih =>
    -- Only expressions with parts take further steps; a part that was run to its end keeps its
    -- outcome by induction, and what comes after it is the same.
    cases e with
    | seq a b =>
      change (run g n a s).andThen (run g n b) ≠ .exhausted at h
      change (run g (n + 1) a s).andThen (run g (n + 1) b) = (run g n a s).andThen (run g n b)
      rw [ih (Outcome.ne_exhausted_of_andThen h)]
      apply Outcome.andThen_congr
      intro t ht
      rw [ht] at h
      apply ih h
    | alt a b =>
      rw [run_alt] at h ⊢
      conv => rhs; rw [run_alt]
      cases ha : run g n a s with
      | ok t => rw [ih (by rw [ha]; nofun), ha]
      | fail =>
        rw [ha] at h
        rw [ih (by rw [ha]; nofun), ha]
        apply ih h
      | exhausted =>
        rw [ha] at h
        exact absurd rfl h
    | star e =>
      rw [run_star] at h ⊢
      conv => rhs; rw [run_star]
      cases he : run g n e s with
      | ok t =>
        rw [ih (by rw [he]; nofun), he]
        by_cases hle : t.cursor.offset ≤ s.cursor.offset
        · simp only [if_pos hle]
        · simp only [he, if_neg hle] at h ⊢
          apply ih h
      | fail => rw [ih (by rw [he]; nofun), he]
      | exhausted =>
        rw [he] at h
        exact absurd rfl h
    | «unless» e =>
      rw [run_unless] at h ⊢
      conv => rhs; rw [run_unless]
      cases he : run g n e s with
      | ok t => rw [ih (by rw [he]; nofun), he]
      | fail => rw [ih (by rw [he]; nofun), he]
      | exhausted =>
        rw [he] at h
        exact absurd rfl h
    | look e =>
      change (run g (n + 1) e s).andThen _ = (run g n e s).andThen _
      rw [ih (Outcome.ne_exhausted_of_andThen h)]
    | scope e =>
      change (run g (n + 1) e s.enter).andThen _ = (run g n e s.enter).andThen _
      rw [ih (Outcome.ne_exhausted_of_andThen h)]
    | role r e =>
      change (run g (n + 1) e s.enter).andThen _ = (run g n e s.enter).andThen _
      rw [ih (Outcome.ne_exhausted_of_andThen h)]
    | rule name => apply ih h
    | _ => rfl

theorem run_mono {n m : Nat} {e : Expr σ} {s : State} (h : run g n e s ≠ .exhausted)
    (hnm : n ≤ m) :
  run g m e s = run g n e s
  := by
  induction hnm with
  | refl => rfl
  | step _ ih => rw [run_succ (ih ▸ h), ih]

end AccessAudit.Markup.Grammar
