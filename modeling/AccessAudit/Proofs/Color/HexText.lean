import AccessAudit.Proofs.Color.Spelling

/-!
# Texts of hexadecimal colours

A hexadecimal colour is a text of three or six digits after one number sign or none.  Exactly these
texts are read, and the written form of the colour is the canonical one: a number sign and six digits
in small letters, where each of three digits stands twice.  Two texts are the same colour exactly if
they have the same canonical form, and every colour is read from its own written form.
-/

namespace AccessAudit.Rgb

/-! ### Digits -/

/-- The hexadecimal digits in either case. -/
def hexAlphabet : List Char :=
  "0123456789abcdefABCDEF".toList

/-- The value of a hexadecimal digit. -/
def digitValue (d : Char) : Nat :=
  (Text.hexValue? d).getD 0

variable {d : Char} {digits : List Char}

theorem digitValue_spec (hd : d ∈ hexAlphabet) :
  digitValue d < 16 ∧ d.toLower = Nat.digitChar (digitValue d)
  := by
  have table : hexAlphabet.all (fun d =>
      decide (digitValue d < 16 ∧ d.toLower = Nat.digitChar (digitValue d))) = true := by
    decide +kernel
  apply of_decide_eq_true (List.all_eq_true.mp table d hd)

theorem hexValue?_of_mem (hd : d ∈ hexAlphabet) :
  Text.hexValue? d = some (digitValue d)
  := by
  obtain ⟨hlt, hlower⟩ := digitValue_spec hd
  apply hexValue?_of_toLower hlt hlower

/-- Only hexadecimal digits have a value. -/
theorem mem_hexAlphabet_of_hexValue? {n : Nat} (h : Text.hexValue? d = some n) :
  d ∈ hexAlphabet
  := by
  have table : ∀ code < 128, (Text.hexValue? (Char.ofNat code)).isSome = true →
      Char.ofNat code ∈ hexAlphabet := by
    decide +kernel
  have hcode : d.toNat < 128 := by
    simp only [Text.hexValue?, Char.le_def, UInt32.le_iff_toNat_le, Char.reduceVal,
      UInt32.reduceToNat, Char.toNat_val] at h
    by_contra hhigh
    rw [if_neg (by omega), if_neg (by omega), if_neg (by omega)] at h
    cases h
  have hd := table d.toNat hcode
  rw [Char.ofNat_toNat] at hd
  apply hd (Option.isSome_of_eq_some h)

/-- Digits are read as their values. -/
theorem mapM_hexValue?_of_forall_mem (h : ∀ d ∈ digits, d ∈ hexAlphabet) :
  digits.mapM Text.hexValue? = some (digits.map digitValue)
  := by
  apply mapM_hexValue?_of_toLower
  · intro n hn
    obtain ⟨d, hd, rfl⟩ := List.mem_map.mp hn
    apply (digitValue_spec (h d hd)).1
  · rw [List.map_map]
    apply List.map_congr_left
    intro d hd
    apply (digitValue_spec (h d hd)).2

/-- Nothing but digits is read. -/
theorem forall_mem_of_mapM_hexValue? {values : List Nat}
    (h : digits.mapM Text.hexValue? = some values) :
  ∀ d ∈ digits, d ∈ hexAlphabet
  := by
  induction digits generalizing values with
  | nil => simp
  | cons d digits ih =>
    rw [List.mapM_cons] at h
    obtain ⟨n, hn, h⟩ := Option.bind_eq_some_iff.mp h
    obtain ⟨values, hvalues, -⟩ := Option.bind_eq_some_iff.mp h
    rw [List.forall_mem_cons]
    exact ⟨mem_hexAlphabet_of_hexValue? hn, ih hvalues⟩

/-! ### Texts of a colour -/

/-- The texts of hexadecimal colours, with their digits: one number sign or none, then exactly three
or exactly six hexadecimal digits. -/
structure HexText (digits : List Char) (text : String) : Prop where
  sign : text.toList = digits ∨ text.toList = '#' :: digits
  count : digits.length = 3 ∨ digits.length = 6
  hex : ∀ d ∈ digits, d ∈ hexAlphabet

/-- The canonical form for some digits: each of three digits twice, in small letters. -/
def canonical (digits : List Char) : String :=
  String.ofList ('#' :: (fullDigits digits).map Char.toLower)

variable {text : String}

/-- The digits of a text are what follows its number sign. -/
theorem HexText.hexDigits_eq (h : HexText digits text) :
  hexDigits text.toList = digits
  := by
  rcases h.sign with htext | htext
  · rw [htext]
    cases digits with
    | nil => rfl
    | cons d digits =>
      have hd : d ≠ '#' := by
        rintro rfl
        exact absurd (h.hex '#' List.mem_cons_self) (by decide)
      rw [hexDigits]
      simp [hd]
  · rw [htext, hexDigits]

/-- The digits of a text follow one number sign or none. -/
theorem toList_eq_hexDigits_or (text : String) :
  text.toList = hexDigits text.toList ∨ text.toList = '#' :: hexDigits text.toList
  := by
  unfold hexDigits
  split
  · rename_i hlist
    exact .inr hlist
  · exact .inl rfl

/-- The values of six digits are those of a colour. -/
theorem exists_hexValues_eq {values : List Nat} (hcount : values.length = 6)
    (hvalues : ∀ n ∈ values, n < 16) :
  ∃ c, ofHexValues? values = some c ∧ c.hexValues = values
  := by
  match values, hcount with
  | [r₁, r₂, g₁, g₂, b₁, b₂], _ =>
    refine ⟨_, rfl, ?_⟩
    simp only [List.forall_mem_cons] at hvalues
    obtain ⟨hr₁, hr₂, hg₁, hg₂, hb₁, hb₂, -⟩ := hvalues
    have hchannel {n m : Nat} (hn : n < 16) (hm : m < 16) :
        (16 * n + m).toUInt8.toNat / 16 = n ∧ (16 * n + m).toUInt8.toNat % 16 = m := by
      rw [Nat.toUInt8_eq, UInt8.toNat_ofNat_of_lt' (by simp [UInt8.size]; omega)]
      omega
    simp only [hexValues, ofNats, *]

/-- Of three or six digits the full form has six. -/
theorem HexText.length_fullDigits (h : HexText digits text) :
  (fullDigits digits).length = 6
  := by
  rcases h.count with hcount | hcount
  · match digits, hcount with
    | [_, _, _], _ => rfl
  · match digits, hcount with
    | [_, _, _, _, _, _], _ => rfl

theorem mem_of_mem_fullDigits (hd : d ∈ fullDigits digits) :
  d ∈ digits
  := by
  fun_cases fullDigits digits with
  | case1 r g b => simpa [fullDigits] using hd
  | case2 digits hthree => simpa [fullDigits] using hd

theorem HexText.hex_fullDigits (h : HexText digits text) :
  ∀ d ∈ fullDigits digits, d ∈ hexAlphabet
  := by
  intro d hd
  apply h.hex d (mem_of_mem_fullDigits hd)

theorem HexText.parseHex_eq (h : HexText digits text) {c : Rgb}
    (hc : ofHexValues? ((fullDigits digits).map digitValue) = some c) :
  parseHex text = .ok c
  := by
  rw [parseHex, h.hexDigits_eq, ← ofHexValues?_fullDigits,
    mapM_hexValue?_of_forall_mem h.hex_fullDigits, Option.bind_some, hc]

/-- A text of the grammar is read as the colour with its canonical form. -/
theorem HexText.exists_parseHex_eq (h : HexText digits text) :
  ∃ c, parseHex text = .ok c ∧ c.toHex = canonical digits
  := by
  have hvalues : ∀ n ∈ (fullDigits digits).map digitValue, n < 16 := by
    intro n hn
    obtain ⟨d, hd, rfl⟩ := List.mem_map.mp hn
    apply (digitValue_spec (h.hex_fullDigits d hd)).1
  obtain ⟨c, hc, hcvalues⟩ := exists_hexValues_eq
    ((List.length_map digitValue).trans h.length_fullDigits) hvalues
  use c, h.parseHex_eq hc
  rw [← String.toList_inj, toList_toHex, hcvalues, canonical, String.toList_ofList, List.map_map]
  congr 1
  apply List.map_congr_left
  intro d hd
  apply (digitValue_spec (h.hex_fullDigits d hd)).2.symm

/-- What is read is a text of the grammar. -/
theorem hexText_of_parseHex {c : Rgb} (h : parseHex text = .ok c) :
  HexText (hexDigits text.toList) text
  := by
  rw [parseHex] at h
  split at h
  · rename_i colour hread
    obtain ⟨values, hvalues, hcolour⟩ := Option.bind_eq_some_iff.mp hread
    refine ⟨toList_eq_hexDigits_or text, ?_, forall_mem_of_mapM_hexValue? hvalues⟩
    have hlength : values.length = (hexDigits text.toList).length := by
      rw [mapM_hexValue?_of_forall_mem (forall_mem_of_mapM_hexValue? hvalues),
        Option.some_inj] at hvalues
      rw [← hvalues, List.length_map]
    rw [← hlength]
    unfold ofHexValues? at hcolour
    split at hcolour
    · exact .inl rfl
    · exact .inr rfl
    · cases hcolour
  · cases h

/-- The texts that are read are those of the grammar. -/
theorem exists_parseHex_eq_iff :
  (∃ c, parseHex text = .ok c) ↔ ∃ digits, HexText digits text
  := by
  constructor
  · rintro ⟨c, hc⟩
    exact ⟨_, hexText_of_parseHex hc⟩
  · rintro ⟨digits, hdigits⟩
    obtain ⟨c, hc, -⟩ := hdigits.exists_parseHex_eq
    use c

/-- A text that is not read is reported as it is. -/
theorem parseHex_eq_error (h : ¬∃ digits, HexText digits text) :
  parseHex text = .error (.invalidHex text)
  := by
  rw [← exists_parseHex_eq_iff] at h
  rw [parseHex] at h ⊢
  split
  · rename_i colour hread
    rw [hread] at h
    exact absurd ⟨colour, rfl⟩ h
  · rfl

theorem toHex_injective {c c' : Rgb} (h : c.toHex = c'.toHex) :
  c = c'
  := by
  have hc := parseHex_of_hexForm c.hexForm_toHex
  rw [h, parseHex_of_hexForm c'.hexForm_toHex] at hc
  apply (Except.ok.inj hc).symm

/-- Texts of the grammar are one colour exactly if they have one canonical form. -/
theorem parseHex_eq_parseHex_iff {digits' : List Char} {text' : String}
    (h : HexText digits text) (h' : HexText digits' text') :
  parseHex text = parseHex text' ↔ canonical digits = canonical digits'
  := by
  obtain ⟨c, hc, hcanonical⟩ := h.exists_parseHex_eq
  obtain ⟨c', hc', hcanonical'⟩ := h'.exists_parseHex_eq
  rw [hc, hc', ← hcanonical, ← hcanonical', Except.ok.injEq]
  constructor
  · rintro rfl
    rfl
  · apply toHex_injective

/-! ### Written forms -/

theorem digitChar_mem_hexAlphabet {n : Nat} (hn : n < 16) :
  Nat.digitChar n ∈ hexAlphabet
  := by
  have table : ∀ n < 16, Nat.digitChar n ∈ hexAlphabet := by
    decide
  apply table n hn

theorem utf8Size_of_mem (hd : d ∈ hexAlphabet) :
  d.utf8Size = 1
  := by
  have table : hexAlphabet.all (fun d => d.utf8Size == 1) = true := by
    decide
  apply eq_of_beq (List.all_eq_true.mp table d hd)

/-- The written form of a colour has seven bytes. -/
theorem utf8ByteSize_toHex (c : Rgb) :
  c.toHex.utf8ByteSize = 7
  := by
  have hsize {n : Nat} (hn : n ∈ c.hexValues) : (Nat.digitChar n).utf8Size = 1 := by
    apply utf8Size_of_mem (digitChar_mem_hexAlphabet (lt_of_mem_hexValues hn))
  have hsign : "#".utf8ByteSize = 1 := rfl
  simp only [hexValues, List.mem_cons, forall_eq_or_imp] at hsize
  simp [toHex, channelDigits, hsize, hsign]

/-- A colour is read from its written form without the number sign. -/
theorem exists_parseHex_without_sign (c : Rgb) :
  ∃ bare, c.toHex = "#" ++ bare ∧ parseHex bare = .ok c
  := by
  obtain ⟨digits, htext, hcanonical⟩ := c.hexForm_toHex
  have hsigned : HexText digits c.toHex := by
    have hread := hexText_of_parseHex (parseHex_of_hexForm c.hexForm_toHex)
    rwa [htext, hexDigits] at hread
  have hbare : HexText digits (String.ofList digits) :=
    { sign := .inl String.toList_ofList, count := hsigned.count, hex := hsigned.hex }
  obtain ⟨c', hc', hform⟩ := hbare.exists_parseHex_eq
  have hsame : c' = c := by
    apply toHex_injective
    rw [hform, canonical, hcanonical, String.ofList_toList]
  use String.ofList digits
  constructor
  · rw [← String.toList_inj, htext]
    simp
  · rw [hc', hsame]

end AccessAudit.Rgb
