import AccessAudit.Proofs.Color.Spelling

/-!
# Suggestions for two colours

A colour is looked up by name first, blanks and all, and only then read as a colour and looked up by
its value.  The detour by name changes nothing: what has a name is a class or a token, which is read
as the colour of its swatch, and no other swatch has that colour.  The suggestions for two colours
thus depend on the colours alone, not on how they are spelled.
-/

namespace AccessAudit

namespace Palette

variable {s : Swatch} {text : String}

/-- A text is the token that it names, or the beginning of a class and the token. -/
theorem eq_tokenOfClass_or (text : String) :
  text = tokenOfClass text ∨ ∃ lead ∈ classLeads, text = lead ++ tokenOfClass text
  := by
  cases htext : Text.after? "text-" text with
  | some token =>
    have htoken : tokenOfClass text = token := by
      rw [tokenOfClass, htext, Option.some_or, Option.getD_some]
    rw [htoken]
    apply Or.inr
    use "text-", List.mem_cons_self
    apply Text.eq_append_of_after? htext
  | none =>
    cases hback : Text.after? "bg-" text with
    | some token =>
      have htoken : tokenOfClass text = token := by
        rw [tokenOfClass, htext, hback, Option.none_or, Option.getD_some]
      rw [htoken]
      apply Or.inr
      use "bg-", List.mem_cons_of_mem _ List.mem_cons_self
      apply Text.eq_append_of_after? hback
    | none =>
      apply Or.inl
      rw [tokenOfClass, htext, hback, Option.none_or, Option.getD_none]

/-- What names a swatch is one of its spellings by name. -/
theorem spells_of_resolve? (h : resolve? text = some s) :
  s ∈ swatches ∧ ∃ lead ∈ classLeads, Spells lead s text
  := by
  have htoken : s.token = tokenOfClass text := by
    simpa using List.find?_some h
  constructor
  · apply mem_swatches_of_lookup? h
  · rcases eq_tokenOfClass_or text with htext | ⟨lead, hlead, htext⟩
    · rw [htext, ← htoken]
      use "text-", List.mem_cons_self
      apply Spells.token
    · rw [htext, ← htoken]
      use lead, hlead
      apply Spells.className

/-- The swatch of a spelling is the swatch of its colour. -/
theorem swatchOf?_eq_bind_nameOf? (text : String) :
  swatchOf? text = (Rgb.parse? text).bind nameOf?
  := by
  cases hname : resolve? text with
  | none => rw [swatchOf?, hname, Option.none_or]
  | some s =>
    obtain ⟨hs, lead, hlead, hspells⟩ := spells_of_resolve? hname
    rw [swatchOf?, hname, Option.some_or, parse?_of_spells hs hlead hspells, Option.bind_some,
      nameOf?_rgb hs]

end Palette

/-- The suggestions for two texts are those for the swatches of the colours that they are read as, so
that two spellings of one colour get the same suggestions. -/
theorem suggestColours_eq_suggestSwatches (foreground background : String) :
  suggestColours foreground background
      = suggestSwatches ((Rgb.parse? foreground).bind Palette.nameOf?)
          ((Rgb.parse? background).bind Palette.nameOf?)
    ∧ ∀ foreground' background',
        Rgb.parse? foreground' = Rgb.parse? foreground →
        Rgb.parse? background' = Rgb.parse? background →
          suggestColours foreground' background' = suggestColours foreground background
  := by
  have hcolours (foreground background : String) : suggestColours foreground background
      = suggestSwatches ((Rgb.parse? foreground).bind Palette.nameOf?)
          ((Rgb.parse? background).bind Palette.nameOf?) := by
    rw [suggestColours, Palette.swatchOf?_eq_bind_nameOf?, Palette.swatchOf?_eq_bind_nameOf?]
  constructor
  · apply hcolours
  · intro foreground' background' hforeground hbackground
    rw [hcolours, hcolours, hforeground, hbackground]

/-- A call of `rgb` and a class between blanks get the suggestions of a token and of digits. -/
theorem suggestColours_eq_suggestSwatches_gray :
  Rgb.parse? "rgb(156, 163, 175)" = Rgb.parse? "gray-400"
    ∧ Rgb.parse? "\tbg-slate-700\n" = Rgb.parse? "#334155"
    ∧ suggestColours "rgb(156, 163, 175)" "\tbg-slate-700\n" = suggestColours "gray-400" "#334155"
  := by
  have hforeground : Rgb.parse? "rgb(156, 163, 175)" = Rgb.parse? "gray-400" := by
    decide +kernel
  have hbackground : Rgb.parse? "\tbg-slate-700\n" = Rgb.parse? "#334155" := by
    decide +kernel
  use hforeground, hbackground
  apply (suggestColours_eq_suggestSwatches "gray-400" "#334155").2 _ _ hforeground hbackground

example :
  suggestColours "rgb(156, 163, 175)" "\tbg-slate-700\n"
    = ["Try text-gray-700 or text-gray-800 for better contrast",
       "Try bg-slate-100 or bg-white for better contrast"]
  := by
  decide +kernel

end AccessAudit
