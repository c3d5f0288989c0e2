import AccessAudit.Proofs.Color.Spelling
import AccessAudit.Proofs.Text.Lines

/-!
# Colours by number

A text is read as a colour by the leftmost call of `rgb` in it, exactly if the runs of that call are
ASCII digits that denote channels.  A later call does not make up for one that is refused.  Blanks
around a spelling do not matter.
-/

namespace AccessAudit.Rgb

variable {red green blue : List Char}

/-- A text is read as the colour that the runs of its leftmost call denote. -/
theorem parseCall?_eq_some_iff_denotes {text : String} {c : Rgb} :
  parseCall? text = some c ↔ ∃ red green blue, LeftmostCall red green blue text.toList
    ∧ Denotes red c.red ∧ Denotes green c.green ∧ Denotes blue c.blue
  := by
  simp only [← firstCall?_eq_some_iff, ← channel?_eq_some_iff, parseCall?, Option.bind_eq_bind,
    Option.bind_eq_some_iff, Prod.exists, Option.some_inj]
  constructor
  · rintro ⟨red, green, blue, hcall, r, hr, g, hg, b, hb, rfl⟩
    exact ⟨red, green, blue, hcall, hr, hg, hb⟩
  · rintro ⟨red, green, blue, hcall, hr, hg, hb⟩
    exact ⟨red, green, blue, hcall, c.red, hr, c.green, hg, c.blue, hb, rfl⟩

/-- A text is not read if a run of its leftmost call denotes no channel, whatever follows. -/
theorem parseCall?_eq_none_iff_of_leftmostCall {text : String}
    (h : LeftmostCall red green blue text.toList) :
  parseCall? text = none ↔ ∃ run ∈ [red, green, blue], ∀ v, ¬Denotes run v
  := by
  have hread (run : List Char) : channel? run = none ↔ ∀ v, ¬Denotes run v := by
    simp only [Option.eq_none_iff_forall_ne_some, Ne, channel?_eq_some_iff]
  have hcall := firstCall?_eq_some_iff.mpr h
  simp only [List.mem_cons, List.not_mem_nil, or_false, exists_eq_or_imp, exists_eq_left, ← hread]
  cases hr : channel? red <;> cases hg : channel? green <;> cases hb : channel? blue <;>
    simp [parseCall?, hcall, hr, hg, hb]

/-- Blanks around a spelling do not matter. -/
theorem parse?_between_blanks (text : String) {before after : String}
    (hbefore : IsGap before.toList) (hafter : IsGap after.toList) :
  parse? (before ++ text ++ after) = parse? text
  := by
  have htrim : Text.trimmed (before ++ text ++ after) = Text.trimmed text := by
    rw [Text.trimmed, String.toList_append, String.toList_append,
      Text.trim_between_blanks _ hbefore hafter, Text.trimmed]
  rw [parse?, htrim, parse?]

/-- A text is read as a colour by its leftmost call, as far as it denotes one: a call whose runs are
not ASCII digits up to 255 is not made up for by a later one.  The hexadecimal form and the call of
every colour are read as the colour, with any blanks around them. -/
theorem parseCall?_of_leftmostCall :
  (∀ text c, parseCall? text = some c
      ↔ ∃ red green blue, LeftmostCall red green blue text.toList
        ∧ Denotes red c.red ∧ Denotes green c.green ∧ Denotes blue c.blue)
    ∧ (∀ text red green blue, LeftmostCall red green blue text.toList →
        (parseCall? text = none ↔ ∃ run ∈ [red, green, blue], ∀ v, ¬Denotes run v))
    ∧ ∀ (c : Rgb) (before after : String), IsGap before.toList → IsGap after.toList →
        parse? (before ++ c.toHex ++ after) = some c
          ∧ parse? (before ++ c.callText ++ after) = some c
  := by
  refine ⟨fun text c => parseCall?_eq_some_iff_denotes, ?refused, ?padded⟩
  case refused =>
    intro text red green blue
    apply parseCall?_eq_none_iff_of_leftmostCall
  case padded =>
    intro c before after hbefore hafter
    rw [parse?_between_blanks _ hbefore hafter, parse?_between_blanks _ hbefore hafter]
    exact ⟨parse?_of_hexForm c.hexForm_toHex, parse?_callText c⟩

/-- A call with a digit of another script is not read, nor is the call behind it; a call with zeros
before its channels is. -/
theorem parseCall?_of_leftmostCall_two_calls :
  LeftmostCall "0255".toList "\u0663".toList "7".toList
      "rgb( 9,9,9) rgb(0255,\u0663, 7) rgb(1,2,3)".toList
    ∧ parseCall? "rgb( 9,9,9) rgb(0255,\u0663, 7) rgb(1,2,3)" = none
    ∧ LeftmostCall "0255".toList "00".toList "7".toList "xrgb(0255,\u00a000,7)rgb(1,2,3)".toList
    ∧ parseCall? "xrgb(0255,\u00a000,7)rgb(1,2,3)" = some ⟨255, 0, 7⟩
    ∧ parse? ("\t " ++ toHex ⟨255, 0, 7⟩ ++ "\u3000") = some ⟨255, 0, 7⟩
    ∧ parse? ("\t " ++ callText ⟨255, 0, 7⟩ ++ "\u3000") = some ⟨255, 0, 7⟩
  := by
  obtain ⟨denoted, refused, padded⟩ := parseCall?_of_leftmostCall
  have hforeign : LeftmostCall "0255".toList "\u0663".toList "7".toList
      "rgb( 9,9,9) rgb(0255,\u0663, 7) rgb(1,2,3)".toList :=
    firstCall?_eq_some_iff.mp (by decide +kernel)
  have hdigit (v : UInt8) : ¬Denotes "\u0663".toList v := by
    rintro ⟨hascii, -⟩
    exact absurd (hascii '\u0663' (by decide)) (by decide)
  have hzeros : LeftmostCall "0255".toList "00".toList "7".toList
      "xrgb(0255,\u00a000,7)rgb(1,2,3)".toList :=
    firstCall?_eq_some_iff.mp (by decide +kernel)
  refine ⟨hforeign, ?_, hzeros, ?_, ?_⟩
  · apply (refused _ _ _ _ hforeign).mpr
    exact ⟨_, by simp, hdigit⟩
  · apply (denoted _ _).mpr
    refine ⟨_, _, _, hzeros, ?_, ?_, ?_⟩ <;>
      exact ⟨List.all_eq_true.mp (by decide), by decide⟩
  · apply padded
    · exact List.all_eq_true.mp (by decide +kernel)
    · exact List.all_eq_true.mp (by decide +kernel)

end AccessAudit.Rgb
