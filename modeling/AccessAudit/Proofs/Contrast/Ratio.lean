import AccessAudit.Contrast.Judgement
import Mathlib.Analysis.SpecialFunctions.Pow.Real

/-!
# Contrast in exact arithmetic

Over an ordered field, and for any map from channels to linear light that does not decrease, the
contrast of two colours is the quotient of the larger and the smaller luminance, both raised by
0.05.  It lies between 1, for colours of one luminance, and 21, for white and black, and colours
that are farther apart have no less contrast.  Judgements follow: what passes at level AAA passes
at level AA, and what passes as normal text passes as large text.  The sRGB curve over the real
numbers is such a map.
-/

namespace AccessAudit

/-- A map from channels to linear light: it does not decrease, and goes from 0 to 1. -/
structure IsLight {K : Type} [Field K] [LinearOrder K] (linear : UInt8 → K) : Prop where
  mono : ∀ {v w : UInt8}, v ≤ w → linear v ≤ linear w
  zero : linear 0 = 0
  one : linear 255 = 1

/-- A colour of which no channel is more than that of another one. -/
structure Rgb.AtMost (c d : Rgb) : Prop where
  red : c.red ≤ d.red
  green : c.green ≤ d.green
  blue : c.blue ≤ d.blue

section

variable {K : Type} [Field K] [LinearOrder K] [IsStrictOrderedRing K] {linear : UInt8 → K}
  (hlight : IsLight linear) {a b a' b' : Rgb}

/-! ### Luminance -/

include hlight

/-- More light in the channels is more luminance. -/
theorem luminanceBy_mono (h : a.AtMost b) :
  luminanceBy linear a ≤ luminanceBy linear b
  := by
  have hred := hlight.mono h.red
  have hgreen := hlight.mono h.green
  have hblue := hlight.mono h.blue
  unfold luminanceBy
  gcongr

omit [IsStrictOrderedRing K] in
theorem luminanceBy_black :
  luminanceBy linear ⟨0, 0, 0⟩ = 0
  := by
  simp [luminanceBy, hlight.zero]

theorem luminanceBy_white :
  luminanceBy linear ⟨255, 255, 255⟩ = 1
  := by
  norm_num [luminanceBy, hlight.one]

theorem luminanceBy_nonneg (a : Rgb) :
  0 ≤ luminanceBy linear a
  := by
  rw [← luminanceBy_black hlight]
  apply luminanceBy_mono hlight
  exact ⟨UInt8.zero_le, UInt8.zero_le, UInt8.zero_le⟩

theorem luminanceBy_le_one (a : Rgb) :
  luminanceBy linear a ≤ 1
  := by
  have hchannel (v : UInt8) : v ≤ 255 := Nat.le_of_lt_succ v.toNat_lt
  rw [← luminanceBy_white hlight]
  apply luminanceBy_mono hlight
  exact ⟨hchannel a.red, hchannel a.green, hchannel a.blue⟩

/-! ### Contrast -/

omit [IsStrictOrderedRing K] hlight in
/-- The larger luminance is above, in whatever order the colours are given. -/
theorem contrastBy_eq (linear : UInt8 → K) (a b : Rgb) :
  contrastBy linear a b
    = luminanceQuotient (max (luminanceBy linear a) (luminanceBy linear b))
        (min (luminanceBy linear a) (luminanceBy linear b))
  := by
  unfold contrastBy
  split
  · rename_i h
    rw [max_eq_left h.le, min_eq_right h.le]
  · rename_i h
    rw [max_eq_right (not_lt.mp h), min_eq_left (not_lt.mp h)]

omit [IsStrictOrderedRing K] hlight in
theorem contrastBy_comm (linear : UInt8 → K) (a b : Rgb) :
  contrastBy linear a b = contrastBy linear b a
  := by
  rw [contrastBy_eq, contrastBy_eq, max_comm, min_comm]

theorem raised_pos (a b : Rgb) :
  0 < min (luminanceBy linear a) (luminanceBy linear b) + 0.05
  := by
  have hmin : 0 ≤ min (luminanceBy linear a) (luminanceBy linear b) :=
    le_min (luminanceBy_nonneg hlight a) (luminanceBy_nonneg hlight b)
  positivity

omit hlight in
theorem luminanceQuotient_mono {x x' y y' : K} (hx : 0 ≤ x) (hxx : x ≤ x') (hy : 0 ≤ y')
    (hyy : y' ≤ y) :
  luminanceQuotient x y ≤ luminanceQuotient x' y'
  := by
  have hx' : 0 ≤ x' := hx.trans hxx
  unfold luminanceQuotient
  gcongr

theorem one_le_contrastBy (a b : Rgb) :
  1 ≤ contrastBy linear a b
  := by
  rw [contrastBy_eq, luminanceQuotient, one_le_div (raised_pos hlight a b)]
  gcongr
  apply min_le_max

/-- Contrast is 21 or less. -/
theorem contrastBy_le (a b : Rgb) :
  contrastBy linear a b ≤ 21
  := by
  have hmax : max (luminanceBy linear a) (luminanceBy linear b) ≤ 1 :=
    max_le (luminanceBy_le_one hlight a) (luminanceBy_le_one hlight b)
  have hmin : 0 ≤ min (luminanceBy linear a) (luminanceBy linear b) :=
    le_min (luminanceBy_nonneg hlight a) (luminanceBy_nonneg hlight b)
  calc contrastBy linear a b
      = luminanceQuotient (max (luminanceBy linear a) (luminanceBy linear b))
          (min (luminanceBy linear a) (luminanceBy linear b)) := contrastBy_eq linear a b
    _ ≤ luminanceQuotient 1 0 :=
        luminanceQuotient_mono (hmin.trans min_le_max) hmax le_rfl hmin
    _ = 21 := by norm_num [luminanceQuotient]

theorem contrastBy_eq_one_iff :
  contrastBy linear a b = 1 ↔ luminanceBy linear a = luminanceBy linear b
  := by
  rw [contrastBy_eq, luminanceQuotient, div_eq_one_iff_eq (raised_pos hlight a b).ne',
    add_left_inj, eq_comm]
  apply inf_eq_sup

theorem contrastBy_white_black :
  contrastBy linear ⟨255, 255, 255⟩ ⟨0, 0, 0⟩ = 21
  := by
  rw [contrastBy_eq, luminanceBy_white hlight, luminanceBy_black hlight, max_eq_left zero_le_one,
    min_eq_right zero_le_one]
  norm_num [luminanceQuotient]

/-- More light in the lighter colour, or less light in the darker one, is no less contrast. -/
theorem contrastBy_mono (hab : luminanceBy linear b ≤ luminanceBy linear a) (ha : a.AtMost a')
    (hb : b'.AtMost b) :
  contrastBy linear a b ≤ contrastBy linear a' b'
  := by
  have ha' := luminanceBy_mono hlight ha
  have hb' := luminanceBy_mono hlight hb
  have hab' : luminanceBy linear b' ≤ luminanceBy linear a' := (hb'.trans hab).trans ha'
  rw [contrastBy_eq, contrastBy_eq, max_eq_left hab, min_eq_right hab, max_eq_left hab',
    min_eq_right hab']
  exact luminanceQuotient_mono (luminanceBy_nonneg hlight a) ha' (luminanceBy_nonneg hlight b') hb'

end

/-! ### The sRGB curve -/

/-- The sRGB curve over the real numbers. -/
noncomputable def exactLight (v : UInt8) : ℝ :=
  let c := (v.toNat : ℝ) / 255
  if c ≤ 0.03928 then c / 12.92 else ((c + 0.055) / 1.055) ^ (2.4 : ℝ)

/-- Channels up to 10 are on the straight piece of the curve. -/
theorem exactLight_of_le {v : UInt8} (hv : v.toNat ≤ 10) :
  exactLight v = (v.toNat : ℝ) / 255 / 12.92
  := by
  have hcast : (v.toNat : ℝ) ≤ 10 := by
    exact_mod_cast hv
  apply if_pos
  rw [div_le_iff₀ (by norm_num)]
  linarith

/-- Channels from 11 on are on the power. -/
theorem exactLight_of_lt {v : UInt8} (hv : 10 < v.toNat) :
  exactLight v = (((v.toNat : ℝ) / 255 + 0.055) / 1.055) ^ (2.4 : ℝ)
  := by
  have hcast : (11 : ℝ) ≤ v.toNat := by
    exact_mod_cast hv
  apply if_neg
  rw [not_le, lt_div_iff₀ (by norm_num)]
  linarith

/-- The straight piece ends below the beginning of the power. -/
theorem straight_le_power :
  (10 / 255 / 12.92 : ℝ) ≤ ((11 / 255 + 0.055) / 1.055) ^ (2.4 : ℝ)
  := by
  have hpower : (((11 / 255 + 0.055) / 1.055 : ℝ) ^ (2.4 : ℝ)) ^ 5
      = ((11 / 255 + 0.055) / 1.055) ^ 12 := by
    rw [← Real.rpow_natCast, ← Real.rpow_mul (by norm_num), ← Real.rpow_natCast]
    norm_num
  rw [← pow_le_pow_iff_left₀ (by norm_num) (by positivity) (by decide : 5 ≠ 0), hpower]
  norm_num

/-- The sRGB curve maps channels to linear light. -/
theorem isLight_exactLight :
  IsLight exactLight
  := by
  constructor
  case mono =>
    intro v w hvw
    have hcast : (v.toNat : ℝ) ≤ w.toNat := by
      exact_mod_cast hvw
    by_cases hw : w.toNat ≤ 10
    · rw [exactLight_of_le (le_trans hvw hw), exactLight_of_le hw]
      gcongr
    · rw [exactLight_of_lt (not_le.mp hw)]
      by_cases hv : v.toNat ≤ 10
      · have hlow : (v.toNat : ℝ) ≤ 10 := by
          exact_mod_cast hv
        have hhigh : (11 : ℝ) ≤ w.toNat := by
          exact_mod_cast not_le.mp hw
        calc exactLight v
            = (v.toNat : ℝ) / 255 / 12.92 := exactLight_of_le hv
          _ ≤ 10 / 255 / 12.92 := by gcongr
          _ ≤ ((11 / 255 + 0.055) / 1.055) ^ (2.4 : ℝ) := straight_le_power
          _ ≤ (((w.toNat : ℝ) / 255 + 0.055) / 1.055) ^ (2.4 : ℝ) := by gcongr
      · rw [exactLight_of_lt (not_le.mp hv)]
        gcongr
  case zero =>
    rw [exactLight_of_le (by decide)]
    simp
  case one =>
    have hfull : (255 : UInt8).toNat = 255 := rfl
    rw [exactLight_of_lt (by decide), hfull]
    norm_num

/-! ### Judgements -/

/-- Whether a pair of colours passes a level under a channel map, for a text of the given size and
weight. -/
def Passes {K : Type} [Field K] [LinearOrder K] (linear : UInt8 → K)
    (foreground background : Option Rgb) (fontSize fontWeight : String) (level : Level) : Prop :=
  (checkBy linear foreground background fontSize fontWeight level).map Measurement.valid = some true

section

variable {K : Type} [Field K] [LinearOrder K] {linear : UInt8 → K}
  {foreground background : Option Rgb} {fontSize fontWeight : String} {level : Level}

theorem passes_iff :
  Passes linear foreground background fontSize fontWeight level
    ↔ ∃ a ∈ foreground, ∃ b ∈ background,
        minimum K level (sizeClass fontSize fontWeight) ≤ contrastBy linear a b
  := by
  unfold Passes checkBy
  cases foreground <;> cases background <;> simp [Measurement.valid, meets]

variable [IsStrictOrderedRing K]

/-- Minimum ratios are in the order of their tenths. -/
theorem minimum_le_minimum {level' : Level} {size size' : SizeClass}
    (h : minimumTenths level size ≤ minimumTenths level' size') :
  minimum K level size ≤ minimum K level' size'
  := by
  have hminimum (level : Level) (size : SizeClass) :
      minimum K level size = (minimumTenths level size : K) / 10 := by
    cases level <;> cases size <;> norm_num [minimum, minimumTenths]
  rw [hminimum, hminimum]
  gcongr

theorem Passes.aa (h : Passes linear foreground background fontSize fontWeight .aaa) :
  Passes linear foreground background fontSize fontWeight .aa
  := by
  obtain ⟨a, ha, b, hb, h⟩ := passes_iff.mp h
  apply passes_iff.mpr
  refine ⟨a, ha, b, hb, le_trans (minimum_le_minimum ?_) h⟩
  cases sizeClass fontSize fontWeight <;> decide

/-- What passes as normal text passes as large text. -/
theorem Passes.large {fontSize' fontWeight' : String}
    (hnormal : sizeClass fontSize fontWeight = .normal)
    (hlarge : sizeClass fontSize' fontWeight' = .large)
    (h : Passes linear foreground background fontSize fontWeight level) :
  Passes linear foreground background fontSize' fontWeight' level
  := by
  obtain ⟨a, ha, b, hb, h⟩ := passes_iff.mp h
  apply passes_iff.mpr
  refine ⟨a, ha, b, hb, le_trans (minimum_le_minimum ?_) h⟩
  rw [hnormal, hlarge]
  cases level <;> decide

/-- Contrast is symmetric, a quotient with a positive divisor, and between 1 and 21: it is 1 exactly
for colours of one luminance, 21 for white and black, and not lowered by more light in the lighter
colour or less in the darker one.  What passes at level AAA passes at level AA, and what passes as
normal text passes as large text. -/
theorem contrastBy_of_isLight (hlight : IsLight linear) :
  (∀ a b, contrastBy linear a b = contrastBy linear b a)
    ∧ (∀ a b, contrastBy linear a b
          = luminanceQuotient (max (luminanceBy linear a) (luminanceBy linear b))
              (min (luminanceBy linear a) (luminanceBy linear b))
        ∧ 0 < min (luminanceBy linear a) (luminanceBy linear b) + 0.05)
    ∧ (∀ a b, 1 ≤ contrastBy linear a b ∧ contrastBy linear a b ≤ 21)
    ∧ (∀ a b, contrastBy linear a b = 1 ↔ luminanceBy linear a = luminanceBy linear b)
    ∧ contrastBy linear ⟨255, 255, 255⟩ ⟨0, 0, 0⟩ = 21
    ∧ (∀ a b a' b', luminanceBy linear b ≤ luminanceBy linear a → a.AtMost a' → b'.AtMost b →
        contrastBy linear a b ≤ contrastBy linear a' b')
    ∧ (∀ foreground background fontSize fontWeight,
        Passes linear foreground background fontSize fontWeight .aaa →
          Passes linear foreground background fontSize fontWeight .aa)
    ∧ ∀ foreground background fontSize fontWeight fontSize' fontWeight' level,
        sizeClass fontSize fontWeight = .normal → sizeClass fontSize' fontWeight' = .large →
          Passes linear foreground background fontSize fontWeight level →
            Passes linear foreground background fontSize' fontWeight' level
  := by
  refine ⟨contrastBy_comm linear, ?quotient, ?range, ?one, contrastBy_white_black hlight, ?mono,
    ?levels, ?sizes⟩
  case quotient =>
    intro a b
    exact ⟨contrastBy_eq linear a b, raised_pos hlight a b⟩
  case range =>
    intro a b
    exact ⟨one_le_contrastBy hlight a b, contrastBy_le hlight a b⟩
  case one =>
    intro a b
    apply contrastBy_eq_one_iff hlight
  case mono =>
    intro a b a' b'
    apply contrastBy_mono hlight
  case levels =>
    intro foreground background fontSize fontWeight
    apply Passes.aa
  case sizes =>
    intro foreground background fontSize fontWeight fontSize' fontWeight' level
    apply Passes.large

end

/-- Under the sRGB curve white on black has the contrast 21, a gray on white has more of it with
less red, and white on black passes level AAA as normal text, hence level AA and as large text. -/
theorem contrastBy_of_isLight_exactLight :
  IsLight exactLight
    ∧ contrastBy exactLight ⟨255, 255, 255⟩ ⟨0, 0, 0⟩ = 21
    ∧ luminanceBy exactLight ⟨119, 119, 119⟩ ≤ luminanceBy exactLight ⟨255, 255, 255⟩
    ∧ contrastBy exactLight ⟨255, 255, 255⟩ ⟨119, 119, 119⟩
        ≤ contrastBy exactLight ⟨118, 119, 119⟩ ⟨255, 255, 255⟩
    ∧ Passes exactLight (some ⟨255, 255, 255⟩) (some ⟨0, 0, 0⟩) "16px" "bold" .aaa
    ∧ Passes exactLight (some ⟨255, 255, 255⟩) (some ⟨0, 0, 0⟩) "16px" "bold" .aa
    ∧ sizeClass "16px" "bold" = .normal ∧ sizeClass "18.66px" "bold" = .large
    ∧ Passes exactLight (some ⟨255, 255, 255⟩) (some ⟨0, 0, 0⟩) "18.66px" "bold" .aaa
  := by
  obtain ⟨hcomm, -, -, -, hwhite, hmono, hlevels, hsizes⟩ :=
    contrastBy_of_isLight isLight_exactLight
  have hgray : luminanceBy exactLight ⟨119, 119, 119⟩ ≤ luminanceBy exactLight ⟨255, 255, 255⟩ :=
    luminanceBy_mono isLight_exactLight ⟨by decide, by decide, by decide⟩
  have hnormal : sizeClass "16px" "bold" = .normal := by
    decide +kernel
  have hlarge : sizeClass "18.66px" "bold" = .large := by
    decide +kernel
  have hpasses : Passes exactLight (some ⟨255, 255, 255⟩) (some ⟨0, 0, 0⟩) "16px" "bold" .aaa := by
    apply passes_iff.mpr
    refine ⟨_, rfl, _, rfl, ?_⟩
    rw [hnormal, hwhite]
    norm_num [minimum, minimumTenths]
  refine ⟨isLight_exactLight, hwhite, hgray, ?_, hpasses, hlevels _ _ _ _ hpasses, hnormal, hlarge,
    hsizes _ _ _ _ _ _ _ hnormal hlarge hpasses⟩
  rw [hcomm ⟨118, 119, 119⟩]
  exact hmono _ _ _ _ hgray ⟨by decide, by decide, by decide⟩ ⟨by decide, by decide, by decide⟩

end AccessAudit
