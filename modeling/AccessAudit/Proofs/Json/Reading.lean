import AccessAudit.Json.Reader
import AccessAudit.Proofs.Text.Digits

/-!
# Reading what was written

The indented text of a JSON value is read back as that value, whatever its strings hold, as long as
its numbers are whole.  Every lemma speaks of a text with something after it: the reader stops
exactly where the written part ends.
-/

namespace AccessAudit.Json

/-! ### Strings -/

/-- A one-letter escape is read as the character it stands for. -/
theorem readChars_simple {e c : Char} (he : simpleEscape? e = some c) {s cs rest : List Char}
    (h : readChars s = some (cs, rest)) :
  readChars ('\\' :: e :: s) = some (c :: cs, rest)
  := by
  have hu : e ≠ 'u' := by
    rintro rfl
    cases he
  rw [readChars.eq_4 e s fun _ _ _ _ _ hue _ => hu hue, he]
  simp only [h, Option.bind_eq_bind, Option.bind_some]

theorem unit?_hexPair :
  ∀ n < 32, unit? '0' '0' (Nat.digitChar (n / 16)) (Nat.digitChar (n % 16)) = some n
  := by
  decide

/-- The escape of a control character is read as that character. -/
theorem readChars_control {c : Char} (hc : c.toNat < 32) {s cs rest : List Char}
    (h : readChars s = some (cs, rest)) :
  readChars (['\\', 'u', '0', '0'] ++ hexPair c.toNat ++ s) = some (c :: cs, rest)
  := by
  have htrail : isTrail c.toNat = false := by
    simp only [isTrail, Bool.and_eq_false_iff, decide_eq_false_iff_not]
    omega
  have hlead : isLead c.toNat = false := by
    simp only [isLead, Bool.and_eq_false_iff, decide_eq_false_iff_not]
    omega
  simp only [hexPair, List.cons_append, List.nil_append]
  rw [readChars.eq_3, unit?_hexPair _ hc]
  simp only [htrail, hlead, h, Bool.false_eq_true, if_false, Option.bind_eq_bind, Option.bind_some,
    Char.ofNat_toNat]

theorem readChars_plain {c : Char} (hquote : c ≠ '"') (hslash : c ≠ '\\') (hc : ¬c.toNat < 32)
    {s cs rest : List Char} (h : readChars s = some (cs, rest)) :
  readChars (c :: s) = some (c :: cs, rest)
  := by
  rw [readChars.eq_5 c s hquote (fun _ _ _ _ _ heq _ => hslash heq) fun _ _ heq _ => hslash heq,
    if_neg (not_or.mpr ⟨hc, hslash⟩)]
  simp only [h, Option.bind_eq_bind, Option.bind_some]

/-- What a character is written as between quotes is read as that character. -/
theorem readChars_escapeChar (c : Char) {s cs rest : List Char}
    (h : readChars s = some (cs, rest)) :
  readChars (escapeChar c ++ s) = some (c :: cs, rest)
  := by
  unfold escapeChar
  -- Seven characters have an escape of one letter.
  iterate 7
    split
    · subst c
      apply readChars_simple rfl h
  split
  · apply readChars_control ‹_› h
  · apply readChars_plain ‹_› ‹_› ‹_› h

/-- The text between quotes is read up to the closing quote. -/
@[simp]
theorem readChars_flatMap_escapeChar (cs rest : List Char) :
  readChars (cs.flatMap escapeChar ++ '"' :: rest) = some (cs, rest)
  := by
  induction cs with
  | nil => rw [List.flatMap_nil, List.nil_append, readChars]
  | cons c cs ih =>
    rw [List.flatMap_cons, List.append_assoc]
    apply readChars_escapeChar c ih

/-! ### Numbers -/

/-- A text that no number goes on with. -/
def EndsNumber (rest : List Char) : Prop :=
  ∀ c ∈ rest.head?, c.isDigit = false ∧ c ≠ '.' ∧ c ≠ 'e' ∧ c ≠ 'E'

theorem endsNumber_comma (s : List Char) :
  EndsNumber (',' :: s)
  := by
  intro c hc
  obtain rfl := Option.some.inj hc
  decide

theorem endsNumber_newline (level : Nat) (s : List Char) :
  EndsNumber (newline level ++ s)
  := by
  intro c hc
  obtain rfl := Option.some.inj hc
  decide

/-- The digits of a number are those of a whole number. -/
@[simp]
theorem isWhole_toDigits (n : Nat) :
  isWhole (Nat.toDigits 10 n) = true
  := by
  cases n with
  | zero => rfl
  | succ n =>
    have hall : (Nat.toDigits 10 (n + 1)).all Char.isDigit = true :=
      List.all_eq_true.mpr fun c => Text.isDigit_of_mem_toDigits
    have hne := Text.head?_toDigits_ne (Nat.succ_pos n)
    cases hdigits : Nat.toDigits 10 (n + 1) with
    | nil => exact absurd hdigits Nat.toDigits_ne_nil
    | cons c digits =>
      rw [hdigits] at hall hne
      have hc : c ≠ '0' := fun h => hne (congrArg some h)
      rw [isWhole.eq_3 c digits fun h _ => hc h, hall, Bool.and_true, bne_iff_ne]
      apply hc

/-- The digits of a number are read back, if no number goes on after them. -/
theorem readMagnitude_toDigits (negative : Bool) (n : Nat) {rest : List Char}
    (hrest : EndsNumber rest) :
  readMagnitude negative (Nat.toDigits 10 n ++ rest) = some (⟨negative, ⟨n, 0⟩, true⟩, rest)
  := by
  have hspan : (Nat.toDigits 10 n ++ rest).span Char.isDigit = (Nat.toDigits 10 n, rest) :=
    Text.span_append_of_head? (fun c => Text.isDigit_of_mem_toDigits) fun c hc => (hrest c hc).1
  have hfraction : readFraction rest = some ([], rest) := by
    unfold readFraction
    split
    · exact absurd rfl (hrest '.' rfl).2.1
    · rfl
  have hexponent : readExponent rest = some (none, rest) := by
    unfold readExponent
    split
    · rename_i c rest
      have hc := (hrest c rfl).2.2
      rw [if_neg (not_or.mpr hc)]
    · rfl
  rw [readMagnitude, hspan]
  simp only [isWhole_toDigits, hfraction, hexponent, if_true, Option.bind_eq_bind,
    Option.bind_some, List.append_nil, Decimal.ofDigits_toDigits]
  rfl

/-- A whole number is read back, if no number goes on after it. -/
theorem readNumber_numberText (negative : Bool) (n : Nat) {rest : List Char}
    (hrest : EndsNumber rest) :
  readNumber (numberText ⟨negative, ⟨n, 0⟩, true⟩ ++ rest) = some (⟨negative, ⟨n, 0⟩, true⟩, rest)
  := by
  cases negative with
  | true => apply readMagnitude_toDigits true n hrest
  | false =>
    have hminus : (Nat.toDigits 10 n ++ rest).head? ≠ some '-' := by
      rw [List.head?_append_of_ne_nil _ Nat.toDigits_ne_nil]
      intro h
      have := Text.isDigit_of_mem_toDigits (List.mem_of_mem_head? h)
      cases this
    change readNumber (Nat.toDigits 10 n ++ rest) = _
    rw [readNumber.eq_2 _ fun s hs => hminus (by rw [hs]; rfl)]
    apply readMagnitude_toDigits false n hrest

/-! ### Blanks -/

/-- Blanks before a text do not matter to what follows them. -/
@[simp]
theorem skipSpace_newline (level : Nat) (s : List Char) :
  skipSpace (newline level ++ s) = skipSpace s
  := by
  have hblank : ∀ c ∈ newline level, isSpace c = true := by
    intro c hc
    cases List.mem_cons.mp hc with
    | inl h => rw [h]; rfl
    | inr h => rw [List.eq_of_mem_replicate h]; rfl
  apply List.dropWhile_append_of_pos hblank

theorem skipSpace_cons {c : Char} (hc : isSpace c = false) (s : List Char) :
  skipSpace (c :: s) = c :: s
  := by
  rw [skipSpace, List.dropWhile_cons, hc, if_neg Bool.false_ne_true]

@[simp]
theorem readValue_newline (fuel level : Nat) (s : List Char) :
  readValue fuel (newline level ++ s) = readValue fuel s
  := by
  cases fuel with
  | zero => rfl
  | succ fuel => rw [readValue, readValue, skipSpace_newline]

@[simp]
theorem readValue_blank (fuel : Nat) (s : List Char) :
  readValue fuel (' ' :: s) = readValue fuel s
  := by
  cases fuel with
  | zero => rfl
  | succ fuel => rw [readValue, readValue]; rfl

@[simp]
theorem readItems_newline (fuel level : Nat) (s : List Char) :
  readItems fuel (newline level ++ s) = readItems fuel s
  := by
  cases fuel with
  | zero => rfl
  | succ fuel => rw [readItems, readItems, readValue_newline]

@[simp]
theorem readMembers_newline (fuel level : Nat) (s : List Char) :
  readMembers fuel (newline level ++ s) = readMembers fuel s
  := by
  cases fuel with
  | zero => rfl
  | succ fuel => rw [readMembers, readMembers, skipSpace_newline]

/-! ### Values -/

/-- A text that is read as a value, whatever follows it, with as many steps as it has characters. -/
def Reads (text : List Char) (v : Json) : Prop :=
  ∀ (rest : List Char) (fuel : Nat), EndsNumber rest → text.length ≤ fuel →
    readValue fuel (text ++ rest) = some (v, rest)

/-- A string is read back. -/
theorem reads_quote (s : String) :
  Reads (quote s) (.string s)
  := by
  intro rest fuel _ hfuel
  cases fuel with
  | zero => cases hfuel
  | succ fuel =>
    have htext : quote s ++ rest = '"' :: (s.toList.flatMap escapeChar ++ '"' :: rest) := by
      simp [quote]
    rw [htext, readValue, skipSpace_cons rfl]
    simp only [readChars_flatMap_escapeChar, Option.bind_eq_bind, Option.bind_some,
      String.ofList_toList]

/-- Characters with which a value begins that is no number, and blanks. -/
def otherStarts : List Char :=
  ['n', 't', 'f', '"', '[', '\x7b', ' ', '\n', '\t', '\r']

/-- The text of a whole number begins like no other value. -/
theorem exists_numberText_eq_cons (negative : Bool) (n : Nat) :
  ∃ c s, numberText ⟨negative, ⟨n, 0⟩, true⟩ = c :: s ∧ c ∉ otherStarts ∧ c ≠ ']'
  := by
  cases negative with
  | true => exact ⟨'-', Nat.toDigits 10 n, rfl, by decide, by decide⟩
  | false =>
    obtain ⟨c, s, hs⟩ := List.exists_cons_of_ne_nil (Nat.toDigits_ne_nil (b := 10) (n := n))
    have hdigit : c.isDigit = true := by
      apply Text.isDigit_of_mem_toDigits (n := n)
      rw [hs]
      apply List.mem_cons_self
    have hother : ((']' :: otherStarts).all fun x => !x.isDigit) = true := by decide
    have hc : c ∉ ']' :: otherStarts := by
      intro h
      have := List.all_eq_true.mp hother c h
      rw [hdigit] at this
      cases this
    exact ⟨c, s, hs, fun h => hc (List.mem_cons_of_mem _ h), fun h => hc (h ▸ List.mem_cons_self)⟩

/-- A whole number is read back. -/
theorem reads_numberText (negative : Bool) (n : Nat) :
  Reads (numberText ⟨negative, ⟨n, 0⟩, true⟩) (.number ⟨negative, ⟨n, 0⟩, true⟩)
  := by
  intro rest fuel hrest hfuel
  have hread := readNumber_numberText negative n hrest
  obtain ⟨c, s, htext, hc, -⟩ := exists_numberText_eq_cons negative n
  rw [htext] at hfuel hread ⊢
  cases fuel with
  | zero => cases hfuel
  | succ fuel =>
    simp only [otherStarts, List.mem_cons, not_or] at hc
    have hspace : isSpace c = false := by simp [isSpace, hc]
    rw [List.cons_append] at hread ⊢
    rw [readValue, skipSpace_cons hspace]
    split
    case h_7 => simp only [hread, Option.bind_eq_bind, Option.bind_some]
    all_goals
      rename_i heq
      rw [(List.cons.inj heq).1] at hc
      simp at hc

/-- The items of an array are read up to its closing bracket. -/
theorem readItems_renderItems {level : Nat} {item : Json} {items : List Json}
    (hitem : Reads (render level item) item)
    (hitems : ∀ item ∈ items, Reads (render level item) item) {fuel : Nat}
    (hfuel : (render level item ++ renderItems level items).length < fuel) (outer : Nat)
    (rest : List Char) :
  readItems fuel (render level item ++ (renderItems level items ++ (newline outer ++ ']' :: rest)))
    = some (item :: items, rest)
  := by
  -- The induction is on the items behind the one that is read, since the reader goes on at a comma.
  induction items generalizing item fuel with
  | nil =>
    cases fuel with
    | zero => cases hfuel
    | succ fuel =>
      rw [renderItems, List.append_nil, Nat.lt_succ_iff] at hfuel
      have hread := hitem _ _ (endsNumber_newline outer (']' :: rest)) hfuel
      rw [renderItems, List.nil_append, readItems]
      simp only [hread, Option.bind_eq_bind, Option.bind_some, skipSpace_newline]
      rw [skipSpace_cons rfl]
      rfl
  | cons next items ih =>
    cases fuel with
    | zero => cases hfuel
    | succ fuel =>
      have htext : renderItems level (next :: items) ++ (newline outer ++ ']' :: rest)
          = ',' :: (newline level ++ (render level next
              ++ (renderItems level items ++ (newline outer ++ ']' :: rest)))) := by
        simp only [renderItems, List.cons_append, List.append_assoc]
      simp only [renderItems, List.length_append, List.length_cons] at hfuel
      have hlength : (render level item).length ≤ fuel := by omega
      have hlengths : (render level next ++ renderItems level items).length < fuel := by
        rw [List.length_append]
        omega
      have hread := hitem _ _ (endsNumber_comma (newline level ++ (render level next
        ++ (renderItems level items ++ (newline outer ++ ']' :: rest))))) hlength
      have hrest := ih (hitems next List.mem_cons_self)
        (fun item h => hitems item (List.mem_cons_of_mem _ h)) hlengths
      rw [htext, readItems]
      simp only [hread, Option.bind_eq_bind, Option.bind_some]
      rw [skipSpace_cons rfl]
      simp only [readItems_newline, hrest, Option.bind_some]

theorem quote_append_colon (name : String) (s : List Char) :
  quote name ++ (": ".toList ++ s)
    = '"' :: (name.toList.flatMap escapeChar ++ '"' :: ':' :: ' ' :: s)
  := by
  simp [quote]

/-- The members of an object are read up to its closing brace. -/
theorem readMembers_renderMembers {level : Nat} (name : String) {value : Json}
    {members : List (String × Json)} (hvalue : Reads (render level value) value)
    (hmembers : ∀ member ∈ members, Reads (render level member.2) member.2) {fuel : Nat}
    (hfuel : (render level value ++ renderMembers level members).length < fuel) (outer : Nat)
    (rest : List Char) :
  readMembers fuel (quote name ++ (": ".toList ++ (render level value
      ++ (renderMembers level members ++ (newline outer ++ '\x7d' :: rest)))))
    = some ((name, value) :: members, rest)
  := by
  -- As for arrays, with a name and a colon before each value.
  induction members generalizing name value fuel with
  | nil =>
    cases fuel with
    | zero => cases hfuel
    | succ fuel =>
      rw [renderMembers, List.append_nil, Nat.lt_succ_iff] at hfuel
      have hread := hvalue _ _ (endsNumber_newline outer ('\x7d' :: rest)) hfuel
      rw [renderMembers, List.nil_append, quote_append_colon, readMembers, skipSpace_cons rfl]
      simp only [readChars_flatMap_escapeChar, Option.bind_eq_bind, Option.bind_some]
      rw [skipSpace_cons rfl]
      simp only [readValue_blank, hread, Option.bind_some, skipSpace_newline, String.ofList_toList]
      rw [skipSpace_cons rfl]
      rfl
  | cons next members ih =>
    obtain ⟨nextName, next⟩ := next
    cases fuel with
    | zero => cases hfuel
    | succ fuel =>
      have htext : renderMembers level ((nextName, next) :: members)
            ++ (newline outer ++ '\x7d' :: rest)
          = ',' :: (newline level ++ (quote nextName ++ (": ".toList ++ (render level next
              ++ (renderMembers level members ++ (newline outer ++ '\x7d' :: rest)))))) := by
        simp only [renderMembers, List.cons_append, List.append_assoc]
      simp only [renderMembers, List.length_append, List.length_cons] at hfuel
      have hlength : (render level value).length ≤ fuel := by omega
      have hlengths : (render level next ++ renderMembers level members).length < fuel := by
        rw [List.length_append]
        omega
      have hread := hvalue _ _ (endsNumber_comma (newline level ++ (quote nextName ++ (": ".toList
        ++ (render level next
          ++ (renderMembers level members ++ (newline outer ++ '\x7d' :: rest))))))) hlength
      have hrest := ih nextName (hmembers _ List.mem_cons_self)
        (fun member h => hmembers member (List.mem_cons_of_mem _ h)) hlengths
      rw [htext, quote_append_colon, readMembers, skipSpace_cons rfl]
      simp only [readChars_flatMap_escapeChar, Option.bind_eq_bind, Option.bind_some]
      rw [skipSpace_cons rfl]
      simp only [readValue_blank, hread, Option.bind_some, String.ofList_toList]
      rw [skipSpace_cons rfl]
      simp only [readMembers_newline, hrest, Option.bind_some]

/-! ### Whole texts -/

/-- A value whose numbers are all whole. -/
inductive Whole : Json → Prop where
  | null : Whole .null
  | bool (value : Bool) : Whole (.bool value)
  | number (negative : Bool) (n : Nat) : Whole (.number ⟨negative, ⟨n, 0⟩, true⟩)
  | string (text : String) : Whole (.string text)
  | array {items : List Json} (h : ∀ item ∈ items, Whole item) : Whole (.array items)
  | object {members : List (String × Json)} (h : ∀ member ∈ members, Whole member.2) :
    Whole (.object members)

/-- The first character of a value is neither a blank nor a closing bracket. -/
theorem Whole.exists_render_eq_cons {v : Json} (hv : Whole v) (level : Nat) :
  ∃ c s, render level v = c :: s ∧ isSpace c = false ∧ c ≠ ']'
  := by
  cases hv with
  | null => exact ⟨'n', _, rfl, rfl, by decide⟩
  | bool value => cases value <;> exact ⟨_, _, rfl, rfl, by decide⟩
  | number negative n =>
    obtain ⟨c, s, htext, hc, hbracket⟩ := exists_numberText_eq_cons negative n
    simp only [otherStarts, List.mem_cons, not_or] at hc
    exact ⟨c, s, htext, by simp [isSpace, hc], hbracket⟩
  | string text => exact ⟨'"', _, rfl, rfl, by decide⟩
  | @array items _ => cases items <;> exact ⟨'[', _, rfl, rfl, by decide⟩
  | @object members _ => cases members <;> exact ⟨'\x7b', _, rfl, rfl, by decide⟩

/-- An array is read back if its items are. -/
theorem reads_array {level : Nat} {items : List Json} (hwhole : ∀ item ∈ items, Whole item)
    (hitems : ∀ item ∈ items, Reads (render (level + 1) item) item) :
  Reads (render level (.array items)) (.array items)
  := by
  intro rest fuel hrest hfuel
  cases fuel with
  | zero => cases items <;> cases hfuel
  | succ fuel =>
    cases items with
    | nil => rfl
    | cons item items =>
      have htext : render level (.array (item :: items)) ++ rest
          = '[' :: (newline (level + 1) ++ (render (level + 1) item
              ++ (renderItems (level + 1) items ++ (newline level ++ ']' :: rest)))) := by
        simp only [render, List.cons_append, List.append_assoc, List.nil_append]
      have hlengths : (render (level + 1) item ++ renderItems (level + 1) items).length < fuel := by
        simp only [render, List.length_append, List.length_cons, newline] at hfuel ⊢
        omega
      have hread := readItems_renderItems (hitems item List.mem_cons_self)
        (fun item h => hitems item (List.mem_cons_of_mem _ h)) hlengths level rest
      -- The first item is no closing bracket, so the array is not taken for an empty one.
      obtain ⟨c, s, hitem, hspace, hbracket⟩ :=
        (hwhole item List.mem_cons_self).exists_render_eq_cons (level + 1)
      rw [hitem, List.cons_append] at hread
      rw [htext, readValue, skipSpace_cons rfl]
      simp only [skipSpace_newline]
      rw [hitem, List.cons_append, skipSpace_cons hspace]
      split
      · rename_i heq
        exact absurd (List.cons.inj heq).1 hbracket
      · simp only [hread, Option.bind_eq_bind, Option.bind_some]

/-- An object is read back if the values of its members are. -/
theorem reads_object {level : Nat} {members : List (String × Json)}
    (hmembers : ∀ member ∈ members, Reads (render (level + 1) member.2) member.2) :
  Reads (render level (.object members)) (.object members)
  := by
  intro rest fuel hrest hfuel
  cases fuel with
  | zero => cases members <;> cases hfuel
  | succ fuel =>
    cases members with
    | nil => rfl
    | cons member members =>
      obtain ⟨name, value⟩ := member
      have htext : render level (.object ((name, value) :: members)) ++ rest
          = '\x7b' :: (newline (level + 1) ++ (quote name ++ (": ".toList
              ++ (render (level + 1) value ++ (renderMembers (level + 1) members
                ++ (newline level ++ '\x7d' :: rest)))))) := by
        simp only [render, List.cons_append, List.append_assoc, List.nil_append]
      have hlengths :
          (render (level + 1) value ++ renderMembers (level + 1) members).length < fuel := by
        simp only [render, List.length_append, List.length_cons, newline] at hfuel ⊢
        omega
      have hread := readMembers_renderMembers name (hmembers (name, value) List.mem_cons_self)
        (fun member h => hmembers member (List.mem_cons_of_mem _ h)) hlengths level rest
      rw [quote_append_colon] at hread
      rw [htext, readValue, skipSpace_cons rfl]
      simp only [skipSpace_newline]
      rw [quote_append_colon, skipSpace_cons rfl]
      split
      · rename_i heq
        cases heq
      · simp only [hread, Option.bind_eq_bind, Option.bind_some]

/-- A value with whole numbers is read back from its text at any level. -/
theorem Whole.reads_render {v : Json} (hv : Whole v) (level : Nat) :
  Reads (render level v) v
  := by
  induction hv generalizing level with
  | null =>
    intro rest fuel hrest hfuel
    cases fuel with
    | zero => cases hfuel
    | succ fuel => rfl
  | bool value =>
    intro rest fuel hrest hfuel
    cases fuel with
    | zero => cases value <;> cases hfuel
    | succ fuel => cases value <;> rfl
  | number negative n => apply reads_numberText
  | string text => apply reads_quote
  | array h ih => apply reads_array h fun item hitem => ih item hitem (level + 1)
  | object h ih => apply reads_object fun member hmember => ih member hmember (level + 1)

/-- A value with whole numbers is read back from its indented text, also with a line feed at the
end. -/
theorem Whole.read?_pretty {v : Json} (hv : Whole v) :
  read? (v.pretty ++ "\n") = some v
  := by
  have htext : (v.pretty ++ "\n").toList = render 0 v ++ newline 0 := by
    rw [String.toList_append, pretty, String.toList_ofList]
    rfl
  have hlength : (render 0 v).length ≤ (render 0 v ++ newline 0).length + 1 := by
    rw [List.length_append]
    omega
  have hread := hv.reads_render 0 (newline 0) _ (endsNumber_newline 0 []) hlength
  rw [read?, htext, hread]
  rfl

end AccessAudit.Json
