import AccessAudit.Proofs.Markup.Resolution
import AccessAudit.Proofs.Text.Digits

/-!
# Numbers in a radix

A number literal may be hexadecimal, octal or binary: a zero, the mark of the radix, and digits of
the radix, all in letters of either case, with underscores anywhere behind the mark.  Such a literal
has a value exactly if the number that it denotes is below `2 ^ 64`, and an attribute with a larger
one is an expression.  No literal with a mark is read in another radix or as a decimal number.
-/

namespace AccessAudit

/-- A zero and a mark that cannot go on a decimal number do not begin one. -/
theorem Decimal.readFloat?_eq_none {mark : Char} (hdigit : mark.isDigit = false)
    (hmark : mark ∉ ['.', 'e', 'E']) (rest : List Char) :
  readFloat? ('0' :: mark :: rest) = none
  := by
  simp only [List.mem_cons, List.not_mem_nil, or_false, not_or] at hmark
  have hspan : ('0' :: mark :: rest).span Char.isDigit = (['0'], mark :: rest) := by
    simp [List.span_eq_takeWhile_dropWhile, hdigit]
  have hfraction : splitFraction (mark :: rest) = ([], mark :: rest) := by
    simp [splitFraction, hmark.1]
  have hscale : readScale? (mark :: rest) = none := by
    simp [readScale?, hmark.2]
  rw [readFloat?, read?, hspan]
  · simp only [hfraction, hscale, Option.map_none, ite_self]
  · simp
  · simp

namespace Markup

/-! ### Literals -/

/-- The radices with their marks in small letters. -/
def radixMarks : List (Char × Nat) :=
  [('x', 16), ('o', 8), ('b', 2)]

theorem radix_le_of_mem {entry : Char × Nat} (h : entry ∈ radixMarks) :
  entry.2 ≤ 16
  := by
  have table : ∀ entry ∈ radixMarks, entry.2 ≤ 16 := by decide
  exact table entry h

/-- Digits of a radix in letters of either case, with any underscores, and their values. -/
inductive SpelledDigits (radix : Nat) : List Char → List Nat → Prop where
  | nil : SpelledDigits radix [] []
  | underscore {s : List Char} {values : List Nat} (rest : SpelledDigits radix s values) :
    SpelledDigits radix ('_' :: s) values
  | digit {c : Char} {v : Nat} {s : List Char} {values : List Nat} (bound : v < radix)
    (spelled : c.toLower = Nat.digitChar v) (rest : SpelledDigits radix s values) :
    SpelledDigits radix (c :: s) (v :: values)

/-- A literal of a radix denotes the number of its digits, of which there is at least one. -/
inductive RadixLiteral : String → Nat → Prop where
  | literal {mark : Char} {radix : Nat} {s : List Char} {values : List Nat}
    (marked : (mark.toLower, radix) ∈ radixMarks) (digits : SpelledDigits radix s values)
    (ne_nil : values ≠ []) :
    RadixLiteral (String.ofList ('0' :: mark :: s)) (Nat.ofDigits radix values.reverse)

variable {radix : Nat} {s : List Char} {values : List Nat}

theorem SpelledDigits.lt (h : SpelledDigits radix s values) :
  ∀ v ∈ values, v < radix
  := by
  induction h with
  | nil => simp
  | underscore rest ih => exact ih
  | digit bound spelled rest ih => exact List.forall_mem_cons.mpr ⟨bound, ih⟩

/-- Without underscores and in small letters, digits are those that are written for their values. -/
theorem SpelledDigits.map_toLower_filter (h : SpelledDigits radix s values) (hradix : radix ≤ 16) :
  (s.filter (· != '_')).map Char.toLower = values.map Nat.digitChar
  := by
  have table : ∀ v < 16, Nat.digitChar v ≠ '_' := by
    decide
  induction h with
  | nil => rfl
  | underscore rest ih => exact ih
  | @digit c v s values bound spelled rest ih =>
    have hc : c ≠ '_' := by
      rintro rfl
      exact table v (by omega) spelled.symm
    rw [List.filter_cons_of_pos (by simpa using hc), List.map_cons, List.map_cons, spelled, ih]

/-- Behind a zero and a mark digits are read in the radix of that mark only. -/
theorem radixValue?_cons_cons {lead : String} {mark : Char} (hlead : lead.toList = ['0', mark])
    (mark' : Char) (radix : Nat) (digits : List Char) :
  radixValue? lead radix ('0' :: mark' :: digits)
    = if mark = mark' then (Text.natural? radix digits).bind wholeValue? else none
  := by
  rw [radixValue?, hlead, Text.rest?, if_pos rfl, Text.rest?]
  split
  · rfl
  · rfl

/-- A literal with a mark is read in the radix of the mark or not at all. -/
theorem numberValue?_literal {mark : Char} (hmark : (mark.toLower, radix) ∈ radixMarks)
    (h : SpelledDigits radix s values) :
  numberValue? (String.ofList ('0' :: mark :: s))
    = (Text.natural? radix (values.map Nat.digitChar)).bind wholeValue?
  := by
  have hradix : radix ≤ 16 := radix_le_of_mem hmark
  have hne : mark ≠ '_' := by
    rintro rfl
    have table : ∀ entry ∈ radixMarks, entry.1 ≠ Char.toLower '_' := by decide
    exact table _ hmark rfl
  have hdigits : ((String.ofList ('0' :: mark :: s)).toList.filter (· != '_')).map Char.toLower
      = '0' :: mark.toLower :: values.map Nat.digitChar := by
    rw [String.toList_ofList, List.filter_cons_of_pos (by decide),
      List.filter_cons_of_pos (by simpa using hne), List.map_cons, List.map_cons,
      h.map_toLower_filter hradix]
    rfl
  -- The decimal reading, which is tried at last, stops at the mark.
  have hdecimal : Decimal.readFloat? ('0' :: mark.toLower :: values.map Nat.digitChar) = none := by
    have table : ∀ entry ∈ radixMarks,
        entry.1.isDigit = false ∧ entry.1 ∉ ['.', 'e', 'E'] := by
      decide
    obtain ⟨hdigit, hother⟩ := table _ hmark
    apply Decimal.readFloat?_eq_none hdigit hother
  have hhex : "0x".toList = ['0', 'x'] := rfl
  have hoctal : "0o".toList = ['0', 'o'] := rfl
  have hbinary : "0b".toList = ['0', 'b'] := rfl
  rw [numberValue?, hdigits, hdecimal, radixValue?_cons_cons hhex, radixValue?_cons_cons hoctal,
    radixValue?_cons_cons hbinary]
  simp only [radixMarks, List.mem_cons, List.not_mem_nil, or_false, Prod.mk.injEq] at hmark
  rcases hmark with ⟨hmark, rfl⟩ | ⟨hmark, rfl⟩ | ⟨hmark, rfl⟩
  · simp [hmark]
  · simp [hmark]
  · simp [hmark]

@[simp]
theorem wholeValue?_toNat (u : UInt64) :
  wholeValue? u.toNat = some u.toFloat
  := by
  rw [wholeValue?, if_pos u.toNat_lt, Nat.toUInt64_eq, UInt64.ofNat_toNat]

theorem wholeValue?_eq_none {n : Nat} (hn : 2 ^ 64 ≤ n) :
  wholeValue? n = none
  := by
  rw [wholeValue?, if_neg]
  exact Nat.not_lt.mpr hn

theorem RadixLiteral.numberValue?_eq {text : String} {n : Nat} (h : RadixLiteral text n) :
  numberValue? text = wholeValue? n
  := by
  obtain ⟨hmark, hdigits, hne⟩ := h
  rw [numberValue?_literal hmark hdigits,
    Text.natural?_map_digitChar (radix_le_of_mem hmark) hne hdigits.lt, Option.bind_some]

/-- A literal of a radix has a value exactly if the number that it denotes is below `2 ^ 64`, and
then its value is that number as a double.  An attribute with the literal in braces, behind any
number of parentheses, has that value too, and is an expression if the number is larger. -/
theorem numberValue?_of_radixLiteral {text : String} {n : Nat} (h : RadixLiteral text n) :
  ((numberValue? text).isSome = true ↔ n < 2 ^ 64)
    ∧ (∀ u : UInt64, u.toNat = n → numberValue? text = some u.toFloat)
    ∧ ∀ (t name value core : Tree) (rest : List Tree) (depth : Nat),
        t.parts = name :: value :: rest → value.kind = .container →
        InParentheses depth value.children (some core) → core.kind = .number → core.text = text →
          (∀ u : UInt64, u.toNat = n → attribute? t = some (name.text, .number u.toFloat))
            ∧ (2 ^ 64 ≤ n → attribute? t = some (name.text, .expression))
  := by
  rw [h.numberValue?_eq]
  refine ⟨?_, ?_, ?_⟩
  · rw [wholeValue?]
    simp
  · rintro u rfl
    apply wholeValue?_toNat
  · intro t name value core rest depth hparts hcontainer hinside hnumber htext
    have hvalue : attribute? t
        = some (name.text, (wholeValue? n).elim .expression .number) := by
      simp [attribute?, hparts, Value.ofTree, hcontainer, Value.ofBraces, hinside.content?_eq,
        Value.ofLiteral, hnumber, htext, h.numberValue?_eq]
    constructor
    · rintro u rfl
      simp [hvalue]
    · intro hn
      simp [hvalue, wholeValue?_eq_none hn]

theorem SpelledDigits.replicate {c : Char} {v : Nat} (bound : v < radix)
    (spelled : c.toLower = Nat.digitChar v) (rest : SpelledDigits radix s values) (count : Nat) :
  SpelledDigits radix (List.replicate count c ++ s) (List.replicate count v ++ values)
  := by
  induction count with
  | zero => exact rest
  | succ count ih => exact .digit bound spelled ih

/-- An octal literal of `2 ^ 64`. -/
def octalLiteral : Tree :=
  leafTree .number "0o2_000000000000000000000"

/-- An attribute with the literal in parentheses after a comment. -/
def octalAttribute : Tree :=
  .node .attribute .plain 1 1 ""
    [leafTree .identifier "max",
     .node .container .plain 1 1 ""
       [leafTree .comment "", .node .parenthesized .plain 1 1 "" [octalLiteral]]]

/-- The largest number that has a value, and an attribute with one that is larger. -/
theorem numberValue?_of_radixLiteral_bounds :
  RadixLiteral "0X_FFFFFFFFFFFFFFFF" (2 ^ 64 - 1)
    ∧ numberValue? "0X_FFFFFFFFFFFFFFFF" = some (UInt64.ofNat (2 ^ 64 - 1)).toFloat
    ∧ RadixLiteral "0o2_000000000000000000000" (2 ^ 64)
    ∧ numberValue? "0o2_000000000000000000000" = none
    ∧ attribute? octalAttribute = some ("max", .expression)
  := by
  have hlargest : RadixLiteral "0X_FFFFFFFFFFFFFFFF" (2 ^ 64 - 1) :=
    have hmark : ('X'.toLower, 16) ∈ radixMarks := by decide
    .literal hmark (.underscore (.replicate (v := 15) (by decide) (by decide) .nil 16)) (by decide)
  have hlarger : RadixLiteral "0o2_000000000000000000000" (2 ^ 64) :=
    have hmark : ('o'.toLower, 8) ∈ radixMarks := by decide
    .literal hmark
      (.digit (v := 2) (by decide) (by decide)
        (.underscore (.replicate (v := 0) (by decide) (by decide) .nil 21))) (by decide)
  obtain ⟨hsome, -, hattribute⟩ := numberValue?_of_radixLiteral hlarger
  refine ⟨hlargest, (numberValue?_of_radixLiteral hlargest).2.1 _ (by decide), hlarger, ?_, ?_⟩
  · rw [← Option.not_isSome_iff_eq_none, hsome]
    decide
  · have hinside : InParentheses 1
        [leafTree .comment "", .node .parenthesized .plain 1 1 "" [octalLiteral]]
        (some octalLiteral) :=
      .layer ⟨[leafTree .comment ""], [], rfl, by simp [leafTree, Tree.kind], by decide⟩ rfl
        (.bare ⟨[], [], rfl, nofun, by decide⟩ (by decide))
    exact (hattribute octalAttribute _ _ _ [] 1 rfl rfl hinside rfl rfl).2 le_rfl

end Markup

end AccessAudit
