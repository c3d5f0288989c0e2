import AccessAudit.Color.Basic
import AccessAudit.Proofs.Text.Digits
import AccessAudit.Proofs.Text.Occurrence
import Mathlib.Data.List.TakeWhile

/-!
# Calls of `rgb`

A call is the name `rgb`, and in parentheses three runs of decimal digits of any script, with a
comma and any blanks between them.  The search for a call finds the leftmost one of a text, and a
channel is read from the runs of ASCII digits that denote it.
-/

namespace AccessAudit

theorem Text.isBlank_eq_false_of_isDigit {c : Char} (hc : isDigit c = true) :
  isBlank c = false
  := by
  apply Ranges.contains_eq_false_of_apart _ hc
  decide +kernel

namespace Rgb

/-! ### Calls in a text -/

/-- A non-empty run of decimal digits of any script. -/
def IsRun (run : List Char) : Prop :=
  run ≠ [] ∧ ∀ c ∈ run, Text.isDigit c = true

/-- Any number of blanks. -/
def IsGap (gap : List Char) : Prop :=
  ∀ c ∈ gap, Text.isBlank c = true

/-- The texts that begin with a call of three runs of digits. -/
inductive BeginsWithCall (red green blue : List Char) : List Char → Prop where
  | call {gap gap' rest : List Char} (hred : IsRun red) (hgreen : IsRun green) (hblue : IsRun blue)
      (hgap : IsGap gap) (hgap' : IsGap gap') :
    BeginsWithCall red green blue
      ("rgb(".toList ++ red ++ ',' :: gap ++ green ++ ',' :: gap' ++ blue ++ ')' :: rest)

/-- The runs of the leftmost call in a text. -/
def LeftmostCall (red green blue text : List Char) : Prop :=
  ∃ before after, text = before ++ after ∧ BeginsWithCall red green blue after ∧
    ∀ before' after' red' green' blue', text = before' ++ after' →
      BeginsWithCall red' green' blue' after' → before.length ≤ before'.length

/-- A run of ASCII digits that denotes a channel; zeros may stand before it. -/
def Denotes (run : List Char) (channel : UInt8) : Prop :=
  (∀ c ∈ run, c.isDigit = true) ∧
    Nat.ofDigits 10 (run.reverse.map fun c => c.toNat - '0'.toNat) = channel.toNat

variable {s run rest red green blue : List Char}

/-! ### Runs of digits -/

/-- A run of digits is read as far as the digits go. -/
theorem digitRun?_eq_some_iff :
  digitRun? s = some (run, rest)
    ↔ IsRun run ∧ s = run ++ rest ∧ ∀ c ∈ rest.head?, Text.isDigit c = false
  := by
  constructor
  · intro h
    rw [digitRun?, List.span_eq_takeWhile_dropWhile] at h
    simp only [List.isEmpty_iff] at h
    split at h
    · cases h
    · rename_i hrun
      obtain ⟨rfl, rfl⟩ := Prod.mk.inj (Option.some.inj h)
      refine ⟨⟨hrun, fun c => List.mem_takeWhile_imp⟩, (List.takeWhile_append_dropWhile).symm, ?_⟩
      intro c hc
      have := List.head?_dropWhile_not Text.isDigit s
      rw [Option.mem_def.mp hc] at this
      simpa using this
  · rintro ⟨⟨hne, hdigits⟩, rfl, hrest⟩
    rw [digitRun?, Text.span_append_of_head? hdigits hrest]
    simp [hne]

/-- After a comma, blanks are passed over before a run of digits. -/
theorem nextRun?_eq_some_iff :
  nextRun? s = some (run, rest)
    ↔ IsRun run ∧ (∃ gap, IsGap gap ∧ s = ',' :: (gap ++ (run ++ rest)))
      ∧ ∀ c ∈ rest.head?, Text.isDigit c = false
  := by
  constructor
  · intro h
    unfold nextRun? at h
    split at h
    · rename_i after
      obtain ⟨hrun, hafter, hrest⟩ := digitRun?_eq_some_iff.mp h
      refine ⟨hrun, ⟨after.takeWhile Text.isBlank, fun c => List.mem_takeWhile_imp, ?_⟩, hrest⟩
      rw [← hafter, List.takeWhile_append_dropWhile]
    · cases h
  · rintro ⟨hrun, ⟨gap, hgap, rfl⟩, hrest⟩
    have hdrop : (gap ++ (run ++ rest)).dropWhile Text.isBlank = run ++ rest := by
      rw [List.dropWhile_append_of_pos hgap]
      obtain ⟨d, digits, rfl⟩ := List.exists_cons_of_ne_nil hrun.1
      have hblank := Text.isBlank_eq_false_of_isDigit (hrun.2 d List.mem_cons_self)
      rw [List.cons_append, List.dropWhile_cons_of_neg (by simp [hblank])]
    rw [nextRun?, hdrop]
    apply digitRun?_eq_some_iff.mpr ⟨hrun, rfl, hrest⟩

/-! ### The leftmost call -/

/-- The runs of a call are read from its beginning. -/
theorem callRuns?_eq_some_iff :
  callRuns? s = some (red, green, blue) ↔ BeginsWithCall red green blue s
  := by
  constructor
  · intro h
    unfold callRuns? at h
    split at h
    · simp only [Option.bind_eq_bind, Option.bind_eq_some_iff, Prod.exists] at h
      obtain ⟨red, rest, hred, green, rest', hgreen, blue, rest'', hblue, h⟩ := h
      split at h
      · rename_i hend
        cases h
        obtain ⟨hredRun, rfl, -⟩ := digitRun?_eq_some_iff.mp hred
        obtain ⟨hgreenRun, ⟨gap, hgap, rfl⟩, -⟩ := nextRun?_eq_some_iff.mp hgreen
        obtain ⟨hblueRun, ⟨gap', hgap', rfl⟩, -⟩ := nextRun?_eq_some_iff.mp hblue
        obtain ⟨tail, rfl⟩ := List.head?_eq_some_iff.mp hend
        have hcall := @BeginsWithCall.call red green blue gap gap' tail hredRun hgreenRun hblueRun
          hgap hgap'
        simpa using hcall
      · cases h
    · cases h
  · rintro (@⟨gap, gap', tail, hred, hgreen, hblue, hgap, hgap'⟩)
    have hcomma {t : List Char} : ∀ c ∈ (',' :: t).head?, Text.isDigit c = false := by
      rintro c ⟨⟩
      decide
    have hclose {t : List Char} : ∀ c ∈ (')' :: t).head?, Text.isDigit c = false := by
      rintro c ⟨⟩
      decide
    have hred := digitRun?_eq_some_iff.mpr
      ⟨hred, rfl, hcomma (t := gap ++ (green ++ ',' :: (gap' ++ (blue ++ ')' :: tail))))⟩
    have hgreen := nextRun?_eq_some_iff.mpr
      ⟨hgreen, ⟨gap, hgap, rfl⟩, hcomma (t := gap' ++ (blue ++ ')' :: tail))⟩
    have hblue := nextRun?_eq_some_iff.mpr ⟨hblue, ⟨gap', hgap', rfl⟩, hclose (t := tail)⟩
    simp [callRuns?, hred, hgreen, hblue]

/-- The search stops at the first place where a call begins. -/
theorem firstCall?_eq_some_iff :
  firstCall? s = some (red, green, blue) ↔ LeftmostCall red green blue s
  := by
  induction s with
  | nil =>
    constructor
    · intro h
      cases h
    · rintro ⟨before, after, heq, hcall, -⟩
      rw [(List.append_eq_nil_iff.mp heq.symm).2, ← callRuns?_eq_some_iff] at hcall
      cases hcall
  | cons c s ih =>
    rw [firstCall?]
    cases hruns : callRuns? (c :: s) with
    | some runs =>
      obtain ⟨red', green', blue'⟩ := runs
      have hcall := callRuns?_eq_some_iff.mp hruns
      constructor
      · rintro ⟨⟩
        exact ⟨[], c :: s, rfl, hcall, fun _ _ _ _ _ _ _ => Nat.zero_le _⟩
      · rintro ⟨before, after, heq, hcall', hfirst⟩
        obtain rfl := List.eq_nil_of_length_eq_zero (Nat.le_zero.mp (hfirst [] _ _ _ _ rfl hcall))
        rw [heq, List.nil_append, callRuns?_eq_some_iff.mpr hcall'] at hruns
        rw [hruns]
    -- No call begins here, so that the places of calls are those of the rest, each one further on.
    | none =>
      have hnone {red green blue : List Char} : ¬BeginsWithCall red green blue (c :: s) := by
        rw [← callRuns?_eq_some_iff, hruns]
        intro h
        cases h
      rw [ih]
      constructor
      · rintro ⟨before, after, rfl, hcall, hfirst⟩
        refine ⟨c :: before, after, rfl, hcall, ?_⟩
        intro before' after' red' green' blue' heq hcall'
        cases before' with
        | nil =>
          rw [List.nil_append] at heq
          exact absurd (heq ▸ hcall') hnone
        | cons d before' =>
          apply Nat.succ_le_succ
          apply hfirst before' after' _ _ _ (List.cons.inj heq).2 hcall'
      · rintro ⟨before, after, heq, hcall, hfirst⟩
        cases before with
        | nil =>
          rw [List.nil_append] at heq
          exact absurd (heq ▸ hcall) hnone
        | cons d before =>
          obtain ⟨rfl, rfl⟩ := List.cons.inj heq
          refine ⟨before, after, rfl, hcall, ?_⟩
          intro before' after' red' green' blue' heq hcall'
          apply Nat.le_of_succ_le_succ
          apply hfirst (c :: before') after' _ _ _ (by rw [heq]; rfl) hcall'

/-! ### Channels -/

theorem foldl_eq_ofDigits (run : List Char) :
  run.foldl (fun n c => 10 * n + (c.toNat - '0'.toNat)) 0
    = Nat.ofDigits 10 (run.reverse.map fun c => c.toNat - '0'.toNat)
  := by
  rw [List.map_reverse, ← Text.ofDigitValues_eq_ofDigits, Text.ofDigitValues, List.foldl_map]

/-- A channel is read from the runs that denote it. -/
theorem channel?_eq_some_iff {v : UInt8} :
  channel? run = some v ↔ Denotes run v
  := by
  have hchannel (n : Nat) : n ≤ 255 ∧ n.toUInt8 = v ↔ n = v.toNat := by
    constructor
    · rintro ⟨hn, rfl⟩
      rw [Nat.toUInt8_eq, UInt8.toNat_ofNat_of_lt' (Nat.lt_succ_of_le hn)]
    · rintro rfl
      rw [Nat.toUInt8_eq, UInt8.ofNat_toNat]
      exact ⟨Nat.le_of_lt_succ v.toNat_lt, rfl⟩
  rw [channel?, Denotes, ← foldl_eq_ofDigits, ← hchannel, ← List.all_eq_true]
  simp only [Option.ite_none_right_eq_some, Option.some_inj]

end Rgb

end AccessAudit
