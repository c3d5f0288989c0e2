import AccessAudit.Proofs.Grammar.Reading

/-!
# Laws of reading

How the outcome of an expression follows from the outcomes of its parts, without counting steps.  A
choice reads its second alternative only where the first one is rejected, and a repetition stops
only where what it repeats is rejected.
-/

namespace AccessAudit.Markup.Grammar

variable {σ : Type} {g : σ → Expr σ} {a b e : Expr σ} {s t u : State}

/-- Two readings have a common number of steps. -/
theorem Accepts.common (ha : Accepts g a s t) {v : State} {o : Outcome}
    (hb : ∃ n, run g n b v = o) (ho : o ≠ .exhausted) :
  ∃ n, run g n a s = .ok t ∧ run g n b v = o
  := by
  obtain ⟨n, ha⟩ := ha
  obtain ⟨m, hb⟩ := hb
  refine ⟨max n m, ?_, ?_⟩
  · rw [run_mono (by rw [ha]; nofun) (Nat.le_max_left n m), ha]
  · rw [run_mono (by rw [hb]; exact ho) (Nat.le_max_right n m), hb]

/-! ### What is accepted -/

namespace Accepts

theorem empty :
  Accepts g .empty s s
  := ⟨1, rfl⟩

theorem test {holds : List Char → Bool} (h : holds s.cursor.rest = true) :
  Accepts g (.test holds) s s
  := by
  refine ⟨1, ?_⟩
  rw [run_test, if_pos h]

theorem seq (ha : Accepts g a s t) (hb : Accepts g b t u) :
  Accepts g (.seq a b) s u
  := by
  obtain ⟨n, ha, hb⟩ := ha.common hb nofun
  exact ⟨n + 1, Outcome.andThen_eq_ok.mpr ⟨t, ha, hb⟩⟩

theorem altLeft (ha : Accepts g a s t) :
  Accepts g (.alt a b) s t
  := by
  obtain ⟨n, ha⟩ := ha
  refine ⟨n + 1, ?_⟩
  rw [run_alt, ha]

theorem altRight (ha : Rejects g a s) (hb : Accepts g b s t) :
  Accepts g (.alt a b) s t
  := by
  obtain ⟨n, hb, ha⟩ := hb.common ha nofun
  refine ⟨n + 1, ?_⟩
  rw [run_alt, ha]
  apply hb

theorem starStop (he : Rejects g e s) :
  Accepts g (.star e) s s
  := by
  obtain ⟨n, he⟩ := he
  refine ⟨n + 1, ?_⟩
  rw [run_star, he]

/-- One more repetition, which has read something. -/
theorem starNext (he : Accepts g e s t) (hlt : s.cursor.offset < t.cursor.offset)
    (hrest : Accepts g (.star e) t u) :
  Accepts g (.star e) s u
  := by
  obtain ⟨n, he, hrest⟩ := he.common hrest nofun
  refine ⟨n + 1, ?_⟩
  rw [run_star, he]
  simp only [if_neg (Nat.not_le_of_lt hlt)]
  apply hrest

theorem «unless» (he : Rejects g e s) :
  Accepts g (.unless e) s s
  := by
  obtain ⟨n, he⟩ := he
  refine ⟨n + 1, ?_⟩
  rw [run_unless, he]

theorem scope (he : Accepts g e s.enter t) :
  Accepts g (.scope e) s (s.leave t)
  := by
  obtain ⟨n, he⟩ := he
  exact ⟨n + 1, Outcome.andThen_eq_ok.mpr ⟨t, he, rfl⟩⟩

theorem close (kind : Kind) (role : Role) (keep : Bool) :
  Accepts g (.close kind role keep) s (s.close kind role keep)
  := ⟨1, rfl⟩

theorem role {r : Role} (he : Accepts g e s.enter t) :
  Accepts g (.role r e) s (s.leaveAs r t)
  := by
  obtain ⟨n, he⟩ := he
  exact ⟨n + 1, Outcome.andThen_eq_ok.mpr ⟨t, he, rfl⟩⟩

theorem rule {name : σ} (he : Accepts g (g name) s t) :
  Accepts g (.rule name) s t
  := by
  obtain ⟨n, he⟩ := he
  exact ⟨n + 1, he⟩

end Accepts

/-! ### What is rejected -/

theorem Outcome.andThen_eq_fail {o : Outcome} {next : State → Outcome}
    (h : o = .fail ∨ ∃ t, o = .ok t ∧ next t = .fail) :
  o.andThen next = .fail
  := by
  obtain rfl | ⟨t, rfl, h⟩ := h
  · rfl
  · apply h

/-- A character of a class is rejected where another one, or none, is ahead. -/
theorem rejects_char_iff {test : Char → Bool} :
  Rejects g (.char test) s ↔ ∀ x ∈ s.cursor.rest.head?, test x = false
  := by
  constructor
  · rintro ⟨n, h⟩ x hx
    cases n with
    | zero => cases h
    | succ n =>
      obtain ⟨rest, hrest⟩ := List.head?_eq_some_iff.mp hx
      simp only [run_char, hrest] at h
      split at h
      · cases h
      · apply Bool.eq_false_iff.mpr ‹_›
  · intro h
    refine ⟨1, ?_⟩
    rw [run_char]
    split
    · rename_i x rest hrest
      rw [h x (by rw [hrest]; rfl)]
      rfl
    · rfl

namespace Rejects

theorem seqLeft (ha : Rejects g a s) :
  Rejects g (.seq a b) s
  := by
  obtain ⟨n, ha⟩ := ha
  exact ⟨n + 1, Outcome.andThen_eq_fail (.inl ha)⟩

theorem seqRight (ha : Accepts g a s t) (hb : Rejects g b t) :
  Rejects g (.seq a b) s
  := by
  obtain ⟨n, ha, hb⟩ := ha.common hb nofun
  exact ⟨n + 1, Outcome.andThen_eq_fail (.inr ⟨t, ha, hb⟩)⟩

/-- Two alternatives that are rejected. -/
theorem alt (ha : Rejects g a s) (hb : Rejects g b s) :
  Rejects g (.alt a b) s
  := by
  obtain ⟨n, ha⟩ := ha
  obtain ⟨m, hb⟩ := hb
  refine ⟨max n m + 1, ?_⟩
  rw [run_alt, run_mono (by rw [ha]; nofun) (Nat.le_max_left n m), ha]
  change run g (max n m) b s = .fail
  rw [run_mono (by rw [hb]; nofun) (Nat.le_max_right n m), hb]

theorem look (he : Rejects g e s) :
  Rejects g (.look e) s
  := by
  obtain ⟨n, he⟩ := he
  exact ⟨n + 1, Outcome.andThen_eq_fail (.inl he)⟩

theorem scope (he : Rejects g e s.enter) :
  Rejects g (.scope e) s
  := by
  obtain ⟨n, he⟩ := he
  exact ⟨n + 1, Outcome.andThen_eq_fail (.inl he)⟩

theorem rule {name : σ} (he : Rejects g (g name) s) :
  Rejects g (.rule name) s
  := by
  obtain ⟨n, he⟩ := he
  exact ⟨n + 1, he⟩

end Rejects

end AccessAudit.Markup.Grammar
