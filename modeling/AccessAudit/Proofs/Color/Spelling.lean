import AccessAudit.Contrast.Judgement
import AccessAudit.Proofs.Color.Calls
import Mathlib.Data.List.Nodup

/-!
# Spellings of a colour

A swatch of the palette can be spelled in four ways: by a utility class, by its bare token, by
hexadecimal digits after a number sign, and by a call of `rgb`.  Every spelling is read as the
colour of the swatch, and the swatch is found again from it.  The first two are read by name; the
last two are read as a colour, which then is looked up in the palette.  That this gives back the
same swatch rests on the palette: no two swatches share a token or a colour.
-/

namespace AccessAudit

/-! ### Ends and beginnings of a text -/

/-- A text whose ends are not blank stays as it is. -/
theorem Text.trimmed_eq_self {text : String}
    (hhead : ∀ c ∈ text.toList.head?, isBlank c = false)
    (hlast : ∀ c ∈ text.toList.getLast?, isBlank c = false) :
  trimmed text = text
  := by
  have hdrop {s : List Char} (h : ∀ c ∈ s.head?, isBlank c = false) :
      s.dropWhile isBlank = s := by
    cases s with
    | nil => rfl
    | cons c s => rw [List.dropWhile_cons_of_neg (by simp [h c rfl])]
  rw [trimmed, trim, trimEnd, hdrop hhead, hdrop (by simpa using hlast), List.reverse_reverse,
    String.ofList_toList]

/-- A text without blanks stays as it is. -/
theorem Text.trimmed_eq_self_of_forall {text : String}
    (h : ∀ c ∈ text.toList, isBlank c = false) :
  trimmed text = text
  := by
  apply trimmed_eq_self
  · intro c hc
    apply h c (List.mem_of_mem_head? hc)
  · intro c hc
    apply h c (List.mem_of_mem_getLast? hc)

theorem Text.isSome_after?_iff {lead text : String} :
  (after? lead text).isSome = true ↔ lead.toList <+: text.toList
  := by
  rw [after?, Option.isSome_map, isSome_rest?_iff]

@[simp]
theorem Text.after?_append (lead text : String) :
  after? lead (lead ++ text) = some text
  := by
  simp [after?]

theorem Text.eq_append_of_after? {lead text rest : String} (h : after? lead text = some rest) :
  text = lead ++ rest
  := by
  obtain ⟨s, hs, rfl⟩ := Option.map_eq_some_iff.mp h
  rw [← String.toList_inj, String.toList_append, String.toList_ofList]
  apply eq_append_of_rest? hs

theorem Text.toLower_eq_self {c : Char} (h : ¬(65 ≤ c.toNat ∧ c.toNat < 91)) :
  c.toLower = c
  := by
  unfold Char.toLower
  rw [dif_neg]
  simp only [ge_iff_le, UInt32.le_iff_toNat_le, Char.reduceVal, UInt32.reduceToNat, Char.toNat_val]
  omega

/-- A hexadecimal digit is not blank. -/
theorem Text.isBlank_eq_false_of_hexValue? {c : Char} {n : Nat} (h : hexValue? c = some n) :
  isBlank c = false
  := by
  have apart : ∀ range ∈ [(0x30, 0x39), (0x41, 0x46), (0x61, 0x66)], ∀ range' ∈ blankRanges,
      range.2 < range'.1 ∨ range'.2 < range.1 := by
    decide
  apply Ranges.contains_eq_false_of_apart apart
  apply Ranges.contains_iff.mpr
  simp only [hexValue?, Char.le_def, UInt32.le_iff_toNat_le, Char.reduceVal, UInt32.reduceToNat,
    Char.toNat_val] at h
  simp only [List.mem_cons, List.not_mem_nil, or_false, exists_eq_or_imp, exists_eq_left]
  split at h
  · omega
  · split at h
    · omega
    · split at h
      · omega
      · cases h

namespace Rgb

/-! ### Hexadecimal forms -/

/-- The six digits of a colour: of three each stands twice. -/
def fullDigits : List Char → List Char
  | [r, g, b] => [r, r, g, g, b, b]
  | digits => digits

/-- The values of the six digits of a colour. -/
def hexValues (c : Rgb) : List Nat :=
  [c.red.toNat / 16, c.red.toNat % 16, c.green.toNat / 16, c.green.toNat % 16,
   c.blue.toNat / 16, c.blue.toNat % 16]

/-- A hexadecimal form of a colour: a number sign and three or six digits, with letters of either
case. -/
def HexForm (c : Rgb) (text : String) : Prop :=
  ∃ digits, text.toList = '#' :: digits ∧
    '#' :: (fullDigits digits).map Char.toLower = c.toHex.toList

/-- A digit is read in either case of its letter. -/
theorem hexValue?_of_toLower {d : Char} {n : Nat} (hn : n < 16)
    (hd : d.toLower = Nat.digitChar n) :
  Text.hexValue? d = some n
  := by
  have capitals : ∀ code < 91, 65 ≤ code → ∀ n < 16,
      (Char.ofNat code).toLower = Nat.digitChar n →
        Text.hexValue? (Char.ofNat code) = some n := by
    decide +kernel
  have digits : ∀ n < 16, Text.hexValue? (Nat.digitChar n) = some n := by
    decide
  by_cases hcapital : 65 ≤ d.toNat ∧ d.toNat < 91
  · have hcode := capitals d.toNat hcapital.2 hcapital.1 n hn
    rw [Char.ofNat_toNat] at hcode
    apply hcode hd
  · rw [← Text.toLower_eq_self hcapital, hd]
    apply digits n hn

/-- Digits of either case are read as the values that they are written for. -/
theorem mapM_hexValue?_of_toLower {digits : List Char} {values : List Nat}
    (hvalues : ∀ n ∈ values, n < 16)
    (hdigits : digits.map Char.toLower = values.map Nat.digitChar) :
  digits.mapM Text.hexValue? = some values
  := by
  induction values generalizing digits with
  | nil =>
    rw [List.map_eq_nil_iff.mp hdigits]
    rfl
  | cons n values ih =>
    cases digits with
    | nil => cases hdigits
    | cons d digits =>
      obtain ⟨hd, hdigits⟩ := List.cons.inj hdigits
      have hn := hexValue?_of_toLower (hvalues n List.mem_cons_self) hd
      have hrest := ih (fun n h => hvalues n (List.mem_cons_of_mem _ h)) hdigits
      simp [List.mapM_cons, hn, hrest]

theorem toList_toHex (c : Rgb) :
  c.toHex.toList = '#' :: c.hexValues.map Nat.digitChar
  := by
  simp [toHex, channelDigits, hexValues]

@[simp]
theorem ofHexValues?_hexValues (c : Rgb) :
  ofHexValues? c.hexValues = some c
  := by
  have hchannel (v : UInt8) : (16 * (v.toNat / 16) + v.toNat % 16).toUInt8 = v := by
    rw [Nat.div_add_mod]
    apply UInt8.ofNat_toNat
  simp [hexValues, ofHexValues?, ofNats, hchannel]

/-- The values of the digits are below sixteen. -/
theorem lt_of_mem_hexValues {c : Rgb} {n : Nat} (hn : n ∈ c.hexValues) :
  n < 16
  := by
  have hred := c.red.toNat_lt
  have hgreen := c.green.toNat_lt
  have hblue := c.blue.toNat_lt
  simp only [hexValues, List.mem_cons, List.not_mem_nil, or_false] at hn
  omega

/-- Three digits denote the colour of six. -/
theorem ofHexValues?_fullDigits (digits : List Char) :
  ((fullDigits digits).mapM Text.hexValue?).bind ofHexValues?
    = (digits.mapM Text.hexValue?).bind ofHexValues?
  := by
  fun_cases fullDigits digits with
  | case1 r g b =>
    have htwice (n : Nat) : 16 * n + n = 17 * n := by omega
    cases hr : Text.hexValue? r <;> cases hg : Text.hexValue? g <;>
      cases hb : Text.hexValue? b <;> simp [hr, hg, hb, ofHexValues?, htwice]
  | case2 => rfl

/-- Every hexadecimal form of a colour is read as the colour. -/
theorem parseHex_of_hexForm {c : Rgb} {text : String} (h : c.HexForm text) :
  parseHex text = .ok c
  := by
  obtain ⟨digits, htext, hdigits⟩ := h
  rw [toList_toHex, List.cons.injEq] at hdigits
  have hvalues := mapM_hexValue?_of_toLower (fun n => lt_of_mem_hexValues) hdigits.2
  have hread : (digits.mapM Text.hexValue?).bind ofHexValues? = some c := by
    simp [← ofHexValues?_fullDigits, hvalues]
  rw [parseHex, htext, hexDigits, hread]

/-- The form in small letters is a hexadecimal form. -/
theorem hexForm_toHex (c : Rgb) :
  c.HexForm c.toHex
  := by
  have small : ∀ n < 16, (Nat.digitChar n).toLower = Nat.digitChar n := by
    decide
  use c.hexValues.map Nat.digitChar, toList_toHex c
  have hfull : fullDigits (c.hexValues.map Nat.digitChar) = c.hexValues.map Nat.digitChar := rfl
  rw [hfull, toList_toHex, List.map_map]
  congr 1
  apply List.map_congr_left
  intro n hn
  apply small n (lt_of_mem_hexValues hn)

theorem mem_fullDigits {digits : List Char} {d : Char} (hd : d ∈ digits) :
  d ∈ fullDigits digits
  := by
  fun_cases fullDigits digits with
  | case1 r g b => simpa using hd
  | case2 => apply hd

theorem HexForm.isSome_after? {c : Rgb} {text : String} (h : c.HexForm text) :
  (Text.after? "#" text).isSome = true
  := by
  obtain ⟨digits, htext, -⟩ := h
  rw [Text.isSome_after?_iff, htext]
  use digits
  rfl

/-- A hexadecimal form has no blanks. -/
theorem HexForm.isBlank_eq_false {c : Rgb} {text : String} (h : c.HexForm text) {d : Char}
    (hd : d ∈ text.toList) :
  Text.isBlank d = false
  := by
  obtain ⟨digits, htext, hdigits⟩ := h
  rw [toList_toHex, List.cons.injEq] at hdigits
  rw [htext, List.mem_cons] at hd
  rcases hd with rfl | hd
  · decide
  · have hlower := List.mem_map_of_mem (f := Char.toLower) (mem_fullDigits hd)
    rw [hdigits.2, List.mem_map] at hlower
    obtain ⟨n, hn, hlower⟩ := hlower
    apply Text.isBlank_eq_false_of_hexValue?
    apply hexValue?_of_toLower (lt_of_mem_hexValues hn) hlower.symm

/-! ### Calls -/

/-- The call `rgb(r, g, b)` of a colour. -/
def callText (c : Rgb) : String :=
  "rgb(" ++ toString c.red.toNat ++ ", " ++ toString c.green.toNat ++ ", "
    ++ toString c.blue.toNat ++ ")"

theorem toList_callText (c : Rgb) :
  c.callText.toList = 'r' :: 'g' :: 'b' :: '(' :: (Nat.toDigits 10 c.red.toNat
    ++ ',' :: ' ' :: (Nat.toDigits 10 c.green.toNat
    ++ ',' :: ' ' :: (Nat.toDigits 10 c.blue.toNat ++ [')'])))
  := by
  simp [callText]

theorem isSome_after?_callText (c : Rgb) :
  (Text.after? "rgb(" c.callText).isSome = true
  := by
  simp [Text.isSome_after?_iff, toList_callText]

theorem isBlank_eq_false_of_mem_toDigits {n : Nat} {c : Char} (hc : c ∈ Nat.toDigits 10 n) :
  Text.isBlank c = false
  := by
  apply Text.isBlank_eq_false_of_isDigit
  apply Text.isDigit_of_ascii (Text.isDigit_of_mem_toDigits hc)

theorem isRun_toDigits (n : Nat) :
  IsRun (Nat.toDigits 10 n)
  := by
  use Nat.toDigits_ne_nil
  intro c hc
  apply Text.isDigit_of_ascii (Text.isDigit_of_mem_toDigits hc)

/-- The digits of a channel are read as the channel. -/
@[simp]
theorem channel?_toDigits (v : UInt8) :
  channel? (Nat.toDigits 10 v.toNat) = some v
  := by
  have hdigits : (Nat.toDigits 10 v.toNat).all Char.isDigit = true := by
    apply List.all_eq_true.mpr
    intro c
    apply Text.isDigit_of_mem_toDigits
  have hvalue : (Nat.toDigits 10 v.toNat).foldl (fun n c => 10 * n + (c.toNat - '0'.toNat)) 0
      = v.toNat := Decimal.ofDigits_toDigits v.toNat
  have hbound : v.toNat ≤ 255 := Nat.le_of_lt_succ v.toNat_lt
  rw [channel?, if_pos hdigits, hvalue, if_pos hbound, Nat.toUInt8_eq, UInt8.ofNat_toNat]

/-- The runs of digits of a call are the digits of its channels. -/
theorem firstCall?_callText (c : Rgb) :
  firstCall? c.callText.toList
    = some (Nat.toDigits 10 c.red.toNat, Nat.toDigits 10 c.green.toNat,
        Nat.toDigits 10 c.blue.toNat)
  := by
  have hgap : IsGap [' '] := by
    rintro d hd
    rw [List.mem_singleton.mp hd]
    decide
  have hcall := @BeginsWithCall.call _ _ _ [' '] [' '] [] (isRun_toDigits c.red.toNat)
    (isRun_toDigits c.green.toNat) (isRun_toDigits c.blue.toNat) hgap hgap
  apply firstCall?_eq_some_iff.mpr
  rw [toList_callText]
  refine ⟨[], _, (List.nil_append _).symm, ?_, fun _ _ _ _ _ _ _ => Nat.zero_le _⟩
  simpa using hcall

@[simp]
theorem parseCall?_callText (c : Rgb) :
  parseCall? c.callText = some c
  := by
  simp [parseCall?, firstCall?_callText]

/-! ### Colours by number -/

theorem parse?_of_hexForm {c : Rgb} {text : String} (h : c.HexForm text) :
  parse? text = some c
  := by
  have htrim : Text.trimmed text = text :=
    Text.trimmed_eq_self_of_forall fun d => h.isBlank_eq_false
  rw [parse?, htrim, if_pos h.isSome_after?, parseHex_of_hexForm h]
  rfl

/-- The call of a colour is a spelling of it. -/
@[simp]
theorem parse?_callText (c : Rgb) :
  parse? c.callText = some c
  := by
  have htrim : Text.trimmed c.callText = c.callText := by
    apply Text.trimmed_eq_self
    · rw [toList_callText]
      rintro d ⟨⟩
      decide
    · have hlast : c.callText.toList.getLast? = some ')' := by
        rw [callText, String.toList_append]
        apply List.getLast?_concat
      rw [hlast]
      rintro d ⟨⟩
      decide
  have hsign : ¬(Text.after? "#" c.callText).isSome = true := by
    simp [Text.isSome_after?_iff, toList_callText]
  rw [parse?, htrim, if_neg hsign, if_pos c.isSome_after?_callText, parseCall?_callText]

end Rgb

namespace Palette

/-! ### The palette as a table -/

/-- A member of a list without two equal keys is found by its key. -/
theorem find?_eq_some_of_nodup {α κ : Type} [DecidableEq κ] {key : α → κ} {entries : List α}
    (hnodup : (entries.map key).Nodup) {a : α} (ha : a ∈ entries) :
  entries.find? (fun b => key b == key a) = some a
  := by
  obtain ⟨b, hb⟩ : ∃ b, entries.find? (fun b => key b == key a) = some b := by
    apply Option.isSome_iff_exists.mp
    apply List.find?_isSome.mpr
    use a, ha
    apply beq_self_eq_true
  have hkey : key b = key a := by
    simpa using List.find?_some hb
  rw [hb, List.inj_on_of_nodup_map hnodup (List.mem_of_find?_eq_some hb) ha hkey]

variable {s : Swatch}

theorem lookup?_token (hs : s ∈ swatches) :
  lookup? s.token = some s
  := by
  have hnodup : (swatches.map Swatch.token).Nodup := by
    decide +kernel
  apply find?_eq_some_of_nodup hnodup hs

theorem nameOf?_rgb (hs : s ∈ swatches) :
  nameOf? s.rgb = some s
  := by
  have hnodup : (swatches.map Swatch.rgb).Nodup := by
    decide +kernel
  apply find?_eq_some_of_nodup hnodup hs

theorem mem_swatches_of_lookup? {token : String} (h : lookup? token = some s) :
  s ∈ swatches
  := by
  apply List.mem_of_find?_eq_some h

/-- No token begins like a spelling of another kind. -/
theorem after?_token_eq_none (hs : s ∈ swatches) {lead : String}
    (hlead : lead ∈ ["#", "rgb(", "text-", "bg-"]) :
  Text.after? lead s.token = none
  := by
  have table : ∀ s ∈ swatches, ∀ lead ∈ ["#", "rgb(", "text-", "bg-"],
      Text.after? lead s.token = none := by
    decide +kernel
  apply table s hs lead hlead

/-! ### Reading by name -/

/-- The beginnings of the classes that name a colour. -/
def classLeads : List String :=
  ["text-", "bg-"]

/-- A class names the token after its beginning. -/
theorem tokenOfClass_append {lead : String} (hlead : lead ∈ classLeads) (token : String) :
  tokenOfClass (lead ++ token) = token
  := by
  have hbackground : Text.after? "text-" ("bg-" ++ token) = none := by
    simp [Text.after?, Text.rest?]
  simp only [classLeads, List.mem_cons, List.not_mem_nil, or_false] at hlead
  rcases hlead with rfl | rfl
  · simp [tokenOfClass]
  · simp [tokenOfClass, hbackground]

theorem tokenOfClass_eq_self {text : String}
    (h : ∀ lead ∈ classLeads, Text.after? lead text = none) :
  tokenOfClass text = text
  := by
  rw [tokenOfClass, h "text-" (by decide), h "bg-" (by decide)]
  rfl

theorem resolve?_class (hs : s ∈ swatches) {lead : String} (hlead : lead ∈ classLeads) :
  resolve? (lead ++ s.token) = some s
  := by
  rw [resolve?, tokenOfClass_append hlead, lookup?_token hs]

/-- The token of a swatch names it. -/
theorem resolve?_token (hs : s ∈ swatches) :
  resolve? s.token = some s
  := by
  have hself : tokenOfClass s.token = s.token := by
    apply tokenOfClass_eq_self
    intro lead hlead
    apply after?_token_eq_none hs
    simp_all [classLeads]
  rw [resolve?, hself, lookup?_token hs]

/-- A colour by number is no name. -/
theorem resolve?_eq_none {lead text : String} (hlead : lead ∈ ["#", "rgb("])
    (htext : (Text.after? lead text).isSome = true) :
  resolve? text = none
  := by
  obtain ⟨rest, hrest⟩ := Text.isSome_after?_iff.mp htext
  have hself : tokenOfClass text = text := by
    apply tokenOfClass_eq_self
    intro other hother
    simp only [classLeads, List.mem_cons, List.not_mem_nil, or_false] at hlead hother
    rcases hlead with rfl | rfl <;> rcases hother with rfl | rfl <;>
      simp [Text.after?, ← hrest, Text.rest?]
  rw [resolve?, hself, lookup?, List.find?_eq_none]
  intro s hs heq
  have htoken := after?_token_eq_none hs (List.mem_append_left ["text-", "bg-"] hlead)
  rw [beq_iff_eq.mp heq] at htoken
  rw [htoken] at htext
  cases htext

/-- A text without blanks that names a swatch is read as its colour. -/
theorem parse?_of_resolve? {text : String} (h : resolve? text = some s)
    (hblank : ∀ c ∈ text.toList, Text.isBlank c = false) :
  Rgb.parse? text = some s.rgb
  := by
  have hlead {lead : String} (hlead : lead ∈ ["#", "rgb("]) :
      ¬(Text.after? lead text).isSome = true := by
    intro htext
    rw [resolve?_eq_none hlead htext] at h
    cases h
  rw [Rgb.parse?, Text.trimmed_eq_self_of_forall hblank, if_neg (hlead (by decide)),
    if_neg (hlead (by decide)), h]
  rfl

theorem isBlank_eq_false_of_mem_token (hs : s ∈ swatches) {c : Char} (hc : c ∈ s.token.toList) :
  Text.isBlank c = false
  := by
  have table : ∀ s ∈ swatches, s.token.toList.all (fun c => !Text.isBlank c) = true := by
    decide +kernel
  simpa using List.all_eq_true.mp (table s hs) c hc

theorem isBlank_eq_false_of_mem_lead {lead : String} (hlead : lead ∈ classLeads) {c : Char}
    (hc : c ∈ lead.toList) :
  Text.isBlank c = false
  := by
  have table : ∀ lead ∈ classLeads, lead.toList.all (fun c => !Text.isBlank c) = true := by
    decide +kernel
  simpa using List.all_eq_true.mp (table lead hlead) c hc

/-! ### Spellings -/

/-- The spellings of a swatch: by a class with the given beginning, by its token, by hexadecimal
digits, and by a call. -/
inductive Spells (lead : String) (s : Swatch) : String → Prop where
  | className : Spells lead s (lead ++ s.token)
  | token : Spells lead s s.token
  | hex {text : String} (h : s.rgb.HexForm text) : Spells lead s text
  | call : Spells lead s s.rgb.callText

variable {lead text : String}

/-- Every spelling of a swatch is read as its colour. -/
theorem parse?_of_spells (hs : s ∈ swatches) (hlead : lead ∈ classLeads)
    (h : Spells lead s text) :
  Rgb.parse? text = some s.rgb
  := by
  cases h with
  | className =>
    apply parse?_of_resolve? (resolve?_class hs hlead)
    intro c hc
    rw [String.toList_append, List.mem_append] at hc
    rcases hc with hc | hc
    · apply isBlank_eq_false_of_mem_lead hlead hc
    · apply isBlank_eq_false_of_mem_token hs hc
  | token =>
    apply parse?_of_resolve? (resolve?_token hs)
    intro c
    apply isBlank_eq_false_of_mem_token hs
  | hex h => apply Rgb.parse?_of_hexForm h
  | call => apply Rgb.parse?_callText

/-- The swatch of every spelling is the swatch that it spells. -/
theorem swatchOf?_of_spells (hs : s ∈ swatches) (hlead : lead ∈ classLeads)
    (h : Spells lead s text) :
  swatchOf? text = some s
  := by
  cases h with
  | className =>
    rw [swatchOf?, resolve?_class hs hlead, Option.some_or]
  | token =>
    rw [swatchOf?, resolve?_token hs, Option.some_or]
  | hex h =>
    rw [swatchOf?, resolve?_eq_none (by decide) h.isSome_after?, Option.none_or,
      Rgb.parse?_of_hexForm h, Option.bind_some, nameOf?_rgb hs]
  | call =>
    simp [swatchOf?, resolve?_eq_none (by decide) s.rgb.isSome_after?_callText, nameOf?_rgb hs]

example :
  ["text-black", "bg-black", "black", "#000000", "#000", "rgb(0, 0, 0)"].map
      (fun text => (swatchOf? text).map Swatch.token)
    = List.replicate 6 (some "black")
  := by
  decide +kernel

end Palette

end AccessAudit
