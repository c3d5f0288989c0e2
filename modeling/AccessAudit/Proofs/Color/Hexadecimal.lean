import AccessAudit.Proofs.Color.HexText

/-!
# Hexadecimal colours by bytes

A text can be read as a hexadecimal colour by stages on its bytes: the bytes are tested, their count
decides on the expansion to six digits, and each channel is cut out at its byte and converted.
Cutting and converting could fail by themselves; once the bytes have passed the test they do not, and
the stages read what is read from the characters.
-/

namespace AccessAudit.Rgb

variable {digits : List Char} {text : String}

/-! ### Reading by stages -/

/-- The bytes of a text. -/
def bytes (s : List Char) : List UInt8 :=
  s.flatMap String.utf8EncodeChar

/-- The bytes of hexadecimal digits. -/
def isHexByte (b : UInt8) : Bool :=
  (48 ≤ b && b ≤ 57) || (65 ≤ b && b ≤ 70) || (97 ≤ b && b ≤ 102)

/-- What is left of a text after some bytes; nothing, if they reach over the end or end inside a
character. -/
def dropBytes? : Nat → List Char → Option (List Char)
  | 0, s => some s
  | _ + 1, [] => none
  | n + 1, c :: s => if c.utf8Size ≤ n + 1 then dropBytes? (n + 1 - c.utf8Size) s else none

/-- The first bytes of a text; nothing, if they reach over the end or end inside a character. -/
def takeBytes? : Nat → List Char → Option (List Char)
  | 0, _ => some []
  | _ + 1, [] => none
  | n + 1, c :: s =>
    if c.utf8Size ≤ n + 1 then (takeBytes? (n + 1 - c.utf8Size) s).map (c :: ·) else none

/-- What follows a plus sign at the beginning of a text, or the text. -/
def withoutPlus : List Char → List Char
  | '+' :: digits => digits
  | digits => digits

/-- The byte that a text denotes in radix sixteen, after a plus sign or none. -/
def hexByte? (s : List Char) : Option UInt8 :=
  (Text.natural? 16 (withoutPlus s)).bind fun n => if n < 256 then some n.toUInt8 else none

/-- What could fail after the test of the bytes. -/
inductive Fault where
  | slice
  | conversion
  deriving DecidableEq, Repr

/-- The channel at some byte of six digits. -/
def channelAt (start : Nat) (digits : List Char) : Except Fault UInt8 :=
  match (dropBytes? start digits).bind (takeBytes? 2) with
  | none => .error .slice
  | some place =>
    match hexByte? place with
    | none => .error .conversion
    | some channel => .ok channel

/-- The colour of six digits, channel by channel. -/
def channelsOf (digits : List Char) : Except Fault Rgb := do
  let red ← channelAt 0 digits
  let green ← channelAt 2 digits
  let blue ← channelAt 4 digits
  return ⟨red, green, blue⟩

/-- Three bytes are doubled character by character, and six are left as they are. -/
def expand? (digits : List Char) : Option (List Char) :=
  if (bytes digits).length = 3 then some (digits.flatMap fun d => [d, d])
  else if (bytes digits).length = 6 then some digits
  else none

/-- Reads a text by stages: the bytes after one number sign are tested and expanded, and the channels
are cut out and converted. -/
def readByStages (text : String) : Except Fault (Except ReadError Rgb) :=
  let digits := hexDigits text.toList
  if (bytes digits).all isHexByte then
    match expand? digits with
    | some full => (channelsOf full).map .ok
    | none => .ok (.error (.invalidHex text))
  else .ok (.error (.invalidHex text))

theorem toNat_lt_of_isHexByte {b : UInt8} (h : isHexByte b = true) :
  b.toNat < 128
  := by
  simp only [isHexByte, Bool.or_eq_true, Bool.and_eq_true, decide_eq_true_eq,
    UInt8.le_iff_toNat_le, UInt8.reduceToNat] at h
  omega

/-- A character of several bytes begins with a byte that is not ASCII. -/
theorem exists_mem_utf8EncodeChar {c : Char} (hc : 128 ≤ c.toNat) :
  ∃ b ∈ String.utf8EncodeChar c, 128 ≤ b.toNat
  := by
  have hfirst (low high : Nat) (hlow : low < 64) (hhigh : 192 ≤ high) (hsum : low + high < 256) :
      128 ≤ (UInt8.ofNat (low + high)).toNat := by
    rw [UInt8.toNat_ofNat_of_lt' (by simpa [UInt8.size] using hsum)]
    omega
  unfold String.utf8EncodeChar
  simp only [Char.toNat_val]
  rw [if_neg (by omega)]
  split
  · refine ⟨_, List.mem_cons_self, ?_⟩
    apply hfirst <;> omega
  · split
    · refine ⟨_, List.mem_cons_self, ?_⟩
      apply hfirst <;> omega
    · refine ⟨_, List.mem_cons_self, ?_⟩
      apply hfirst <;> omega

/-- The bytes of a character pass the test exactly if it is a hexadecimal digit. -/
theorem all_isHexByte_utf8EncodeChar {c : Char} :
  (String.utf8EncodeChar c).all isHexByte = true ↔ c ∈ hexAlphabet
  := by
  have table : ∀ code < 128,
      ((String.utf8EncodeChar (Char.ofNat code)).all isHexByte = true
        ↔ Char.ofNat code ∈ hexAlphabet) := by
    decide +kernel
  have ascii : hexAlphabet.all (fun d => decide (d.toNat < 128)) = true := by
    decide
  by_cases hc : c.toNat < 128
  · have hcode := table c.toNat hc
    rwa [Char.ofNat_toNat] at hcode
  · obtain ⟨b, hb, hhigh⟩ := exists_mem_utf8EncodeChar (Nat.le_of_not_lt hc)
    constructor
    · intro h
      have hlow := toNat_lt_of_isHexByte (List.all_eq_true.mp h b hb)
      omega
    · intro h
      exact absurd (of_decide_eq_true (List.all_eq_true.mp ascii c h)) hc

theorem all_isHexByte_bytes :
  (bytes digits).all isHexByte = true ↔ ∀ d ∈ digits, d ∈ hexAlphabet
  := by
  rw [bytes, List.all_flatMap]
  simp only [List.all_eq_true (l := digits), all_isHexByte_utf8EncodeChar]

/-- Hexadecimal digits have one byte each. -/
theorem length_bytes (h : ∀ d ∈ digits, d ∈ hexAlphabet) :
  (bytes digits).length = digits.length
  := by
  induction digits with
  | nil => rfl
  | cons d digits ih =>
    rw [List.forall_mem_cons] at h
    rw [bytes, List.flatMap_cons, List.length_append, String.length_utf8EncodeChar,
      utf8Size_of_mem h.1, ← bytes, ih h.2, List.length_cons, Nat.add_comm]

/-- Two digits denote their number. -/
theorem hexByte?_pair {d d' : Char} (hd : d ∈ hexAlphabet) (hd' : d' ∈ hexAlphabet) :
  hexByte? [d, d'] = some (16 * digitValue d + digitValue d').toUInt8
  := by
  have hplus : withoutPlus [d, d'] = [d, d'] := by
    unfold withoutPlus
    split
    · rename_i hlist
      rw [(List.cons.inj hlist).1] at hd
      exact absurd hd (by decide)
    · rfl
  have hlt := (digitValue_spec hd).1
  have hlt' := (digitValue_spec hd').1
  have hvalue {d : Char} (hd : d ∈ hexAlphabet) :
      Text.digitValue? 16 d = some (digitValue d) := by
    rw [Text.digitValue?, hexValue?_of_mem hd, Option.filter_some,
      if_pos (by simpa using (digitValue_spec hd).1)]
  have hnumber : Text.natural? 16 [d, d'] = some (16 * digitValue d + digitValue d') := by
    simp [Text.natural?, hvalue hd, hvalue hd', Text.ofDigitValues]
  have hbyte : 16 * digitValue d + digitValue d' < 256 := by
    omega
  rw [hexByte?, hplus, hnumber, Option.bind_some, if_pos hbyte]

/-- The bytes of some digits are dropped with them. -/
theorem dropBytes?_append {before : List Char} (h : ∀ d ∈ before, d ∈ hexAlphabet)
    (s : List Char) :
  dropBytes? before.length (before ++ s) = some s
  := by
  induction before with
  | nil => rw [List.length_nil, dropBytes?, List.nil_append]
  | cons d before ih =>
    rw [List.forall_mem_cons] at h
    rw [List.length_cons, List.cons_append, dropBytes?, utf8Size_of_mem h.1,
      if_pos (Nat.le_add_left 1 _), Nat.add_sub_cancel, ih h.2]

theorem takeBytes?_pair {d d' : Char} (hd : d ∈ hexAlphabet) (hd' : d' ∈ hexAlphabet)
    (s : List Char) :
  takeBytes? 2 (d :: d' :: s) = some [d, d']
  := by
  simp [takeBytes?, utf8Size_of_mem hd, utf8Size_of_mem hd']

theorem channelAt_append (before after : List Char) (hbefore : ∀ c ∈ before, c ∈ hexAlphabet)
    {d d' : Char} (hd : d ∈ hexAlphabet) (hd' : d' ∈ hexAlphabet) :
  channelAt before.length (before ++ d :: d' :: after)
    = .ok (16 * digitValue d + digitValue d').toUInt8
  := by
  rw [channelAt, dropBytes?_append hbefore, Option.bind_some, takeBytes?_pair hd hd']
  simp only [hexByte?_pair hd hd']

/-- The channels of six digits are those of the colour that the values of the digits give. -/
theorem exists_channelsOf_eq (hcount : digits.length = 6) (h : ∀ d ∈ digits, d ∈ hexAlphabet) :
  ∃ c, channelsOf digits = .ok c ∧ ofHexValues? (digits.map digitValue) = some c
  := by
  match digits, hcount with
  | [r₁, r₂, g₁, g₂, b₁, b₂], _ =>
    simp only [List.forall_mem_cons] at h
    obtain ⟨hr₁, hr₂, hg₁, hg₂, hb₁, hb₂, -⟩ := h
    have hred : channelAt 0 [r₁, r₂, g₁, g₂, b₁, b₂] = _ :=
      channelAt_append [] [g₁, g₂, b₁, b₂] (by simp) hr₁ hr₂
    have hgreen : channelAt 2 [r₁, r₂, g₁, g₂, b₁, b₂] = _ :=
      channelAt_append [r₁, r₂] [b₁, b₂] (by simp [hr₁, hr₂]) hg₁ hg₂
    have hblue : channelAt 4 [r₁, r₂, g₁, g₂, b₁, b₂] = _ :=
      channelAt_append [r₁, r₂, g₁, g₂] [] (by simp [hr₁, hr₂, hg₁, hg₂]) hb₁ hb₂
    refine ⟨_, ?_, rfl⟩
    rw [channelsOf, hred, hgreen, hblue]
    rfl

/-- The digits of a text of the grammar are expanded to their full form. -/
theorem HexText.expand?_eq (h : HexText digits text) :
  expand? digits = some (fullDigits digits)
  := by
  rw [expand?, length_bytes h.hex]
  rcases h.count with hcount | hcount
  · match digits, hcount with
    | [_, _, _], _ => rfl
  · match digits, hcount with
    | [_, _, _, _, _, _], _ => rfl

/-- Only three or six digits are expanded. -/
theorem count_of_expand? {full : List Char} (hhex : ∀ d ∈ digits, d ∈ hexAlphabet)
    (h : expand? digits = some full) :
  digits.length = 3 ∨ digits.length = 6
  := by
  rw [expand?, length_bytes hhex] at h
  split at h
  · rename_i hcount
    exact .inl hcount
  · split at h
    · rename_i hcount
      exact .inr hcount
    · cases h

/-- The stages read what is read from the characters, and none of them fails. -/
theorem readByStages_eq (text : String) :
  readByStages text = .ok (parseHex text)
  := by
  by_cases htext : HexText (hexDigits text.toList) text
  · obtain ⟨c, hc, hvalues⟩ := exists_channelsOf_eq htext.length_fullDigits htext.hex_fullDigits
    rw [readByStages, if_pos (all_isHexByte_bytes.mpr htext.hex), htext.expand?_eq]
    simp only [hc, htext.parseHex_eq hvalues]
    rfl
  · have hrefused : ¬∃ digits, HexText digits text := by
      rintro ⟨digits, h⟩
      rw [h.hexDigits_eq] at htext
      apply htext h
    rw [readByStages, parseHex_eq_error hrefused]
    split
    · rename_i hbytes
      split
      · rename_i full hfull
        have hhex := all_isHexByte_bytes.mp hbytes
        exact absurd ⟨toList_eq_hexDigits_or text, count_of_expand? hhex hfull, hhex⟩ htext
      · rfl
    · rfl

/-! ### Reading and writing -/

/-- Exactly the texts of the grammar are read, and the stages of the reading do not fail; the written
form of what is read is canonical.  A written form has seven bytes and is read as its colour, with
and without the number sign.  Two texts of the grammar are one colour exactly if they have one
canonical form, and a text outside the grammar is reported as it is. -/
theorem parseHex_canonical :
  (∀ text, (∃ c, parseHex text = .ok c) ↔ ∃ digits, HexText digits text)
    ∧ (∀ text, readByStages text = .ok (parseHex text))
    ∧ (∀ digits text, HexText digits text →
        ∃ c, parseHex text = .ok c ∧ c.toHex = canonical digits)
    ∧ (∀ c : Rgb, c.toHex.utf8ByteSize = 7 ∧ parseHex c.toHex = .ok c
        ∧ ∃ bare, c.toHex = "#" ++ bare ∧ parseHex bare = .ok c)
    ∧ (∀ digits digits' text text', HexText digits text → HexText digits' text' →
        (parseHex text = parseHex text' ↔ canonical digits = canonical digits'))
    ∧ ∀ text, (¬∃ digits, HexText digits text) → parseHex text = .error (.invalidHex text)
  := by
  refine ⟨?accepted, ?stages, ?canonical, ?written, ?same, ?refused⟩
  case accepted =>
    intro text
    apply exists_parseHex_eq_iff
  case stages => apply readByStages_eq
  case canonical =>
    intro digits text
    apply HexText.exists_parseHex_eq
  case written =>
    intro c
    use c.utf8ByteSize_toHex, parseHex_of_hexForm c.hexForm_toHex
    apply exists_parseHex_without_sign
  case same =>
    intro digits digits' text text'
    apply parseHex_eq_parseHex_iff
  case refused =>
    intro text
    apply parseHex_eq_error

/-- Three digits after a number sign and six capital letters are one colour, and a second number sign
is refused. -/
theorem parseHex_canonical_abc :
  HexText "aBc".toList "#aBc" ∧ HexText "AABBCC".toList "AABBCC"
    ∧ canonical "aBc".toList = canonical "AABBCC".toList
    ∧ (∃ c, parseHex "#aBc" = .ok c ∧ c.toHex = "#aabbcc")
    ∧ parseHex "#aBc" = parseHex "AABBCC"
    ∧ parseHex "##abc" = .error (.invalidHex "##abc")
  := by
  obtain ⟨accepted, -, written, -, same, refused⟩ := parseHex_canonical
  have hthree : HexText "aBc".toList "#aBc" :=
    ⟨by decide, by decide, List.forall_iff_forall_mem.mp (by decide)⟩
  have hsix : HexText "AABBCC".toList "AABBCC" :=
    ⟨by decide, by decide, List.forall_iff_forall_mem.mp (by decide)⟩
  have hform : canonical "aBc".toList = canonical "AABBCC".toList := by
    decide
  have hcolour : ∃ c, parseHex "#aBc" = .ok c ∧ c.toHex = "#aabbcc" := written _ _ hthree
  have hsign : ¬∃ digits, HexText digits "##abc" := by
    rw [← accepted]
    rintro ⟨c, hc⟩
    cases hc
  exact ⟨hthree, hsix, hform, hcolour, (same _ _ _ _ hthree hsix).mpr hform, refused _ hsign⟩

end AccessAudit.Rgb
