import AccessAudit.Contrast.Judgement
import AccessAudit.Proofs.Color.ClassList
import Mathlib.Data.List.TakeWhile

/-!
# Large text in class lists

The size and the weight that a class list declares are written out as a style writes them, and read
again to tell if the text is large.  Both come back as the numbers that they were written for, so the
answer depends on the last class that names a size and the last one that names a weight: sizes from
`text-2xl` on are large, `text-xl` is large if the weight is bold or above, and nothing else is.
-/

namespace AccessAudit

/-! ### Written sizes and weights -/

theorem Text.trim_toList_eq_self {text : String} (h : ∀ c ∈ text.toList, isBlank c = false) :
  trim text.toList = text.toList
  := by
  have htrimmed := congrArg String.toList (trimmed_eq_self_of_forall h)
  rw [trimmed, String.toList_ofList] at htrimmed
  apply htrimmed

theorem Text.toLower_eq_self_of_isDigit {c : Char} (hc : c.isDigit = true) :
  c.toLower = c
  := by
  simp only [Char.isDigit, ge_iff_le, Bool.and_eq_true, decide_eq_true_eq, UInt32.le_iff_toNat_le,
    Char.toNat_val, Char.reduceVal, UInt32.reduceToNat] at hc
  apply toLower_eq_self
  omega

namespace Decimal

/-- The digits of a number are read as a whole number. -/
@[simp]
theorem read?_toDigits (n : Nat) :
  read? (Nat.toDigits 10 n) = some ⟨n, 0⟩
  := by
  have hspan : (Nat.toDigits 10 n).span Char.isDigit = (Nat.toDigits 10 n, []) := by
    have happend : (Nat.toDigits 10 n ++ []).span Char.isDigit = (Nat.toDigits 10 n, []) :=
      Text.span_append_of_head? (fun c => Text.isDigit_of_mem_toDigits) (by simp)
    rwa [List.append_nil] at happend
  rw [read?, hspan]
  simp [splitFraction, readScale?, Nat.toDigits_ne_nil]

/-- The digits of a number are read as a double without a sign. -/
@[simp]
theorem readFloat?_toDigits (n : Nat) :
  readFloat? (Nat.toDigits 10 n) = some (Decimal.mk n 0).toFloat
  := by
  have hsign {c : Char} {rest : List Char} (hdigits : Nat.toDigits 10 n = c :: rest) :
      c.isDigit = true := Text.isDigit_of_mem_toDigits (hdigits ▸ List.mem_cons_self)
  unfold readFloat?
  split
  · rename_i hdigits
    cases hsign hdigits
  · rename_i hdigits
    cases hsign hdigits
  · simp

end Decimal

/-- A size in pixels is read as its number. -/
@[simp]
theorem readSize?_px (n : Nat) :
  readSize? (toString n ++ "px") = some (Decimal.mk n 0).toFloat
  := by
  have htext : (toString n ++ "px").toList = Nat.toDigits 10 n ++ ['p', 'x'] := by
    simp
  have htrim : Text.trim (toString n ++ "px").toList = Nat.toDigits 10 n ++ ['p', 'x'] := by
    rw [Text.trim_toList_eq_self, htext]
    intro c hc
    rw [htext, List.mem_append] at hc
    rcases hc with hc | hc
    · apply Rgb.isBlank_eq_false_of_mem_toDigits hc
    · simp only [List.mem_cons, List.not_mem_nil, or_false] at hc
      rcases hc with rfl | rfl <;> decide
  have hsize {c : Char} (hc : c ∈ Nat.toDigits 10 n) : isSizeChar c = true := by
    rw [isSizeChar, Text.isDigit_of_mem_toDigits hc, Bool.true_or]
  rw [readSize?, htrim]
  cases hdigits : Nat.toDigits 10 n with
  | nil => exact absurd hdigits Nat.toDigits_ne_nil
  | cons c rest =>
    rw [hdigits] at hsize
    have hrest : (rest ++ ['p', 'x']).takeWhile isSizeChar = rest := by
      rw [List.takeWhile_append_of_pos (fun c hc => hsize (List.mem_cons_of_mem _ hc))]
      apply List.append_nil
    have hread := Decimal.readFloat?_toDigits n
    rw [hdigits] at hread
    simp [hsize List.mem_cons_self, hrest, hread]

/-- A weight is read as its number. -/
theorem readWeight_toString {n : Nat} (hpos : 0 < n) (hlt : n < Nat.pow 2 32) :
  readWeight (toString n) = n
  := by
  have htext : (toString n).toList = Nat.toDigits 10 n := by
    simp
  have htrim : Text.trim (toString n).toList = Nat.toDigits 10 n := by
    rw [Text.trim_toList_eq_self, htext]
    intro c hc
    rw [htext] at hc
    apply Rgb.isBlank_eq_false_of_mem_toDigits hc
  -- The one word that is read as a weight has letters.
  have hbold : (Nat.toDigits 10 n).map Char.toLower ≠ "bold".toList := by
    intro h
    have hb : 'b' ∈ (Nat.toDigits 10 n).map Char.toLower := by
      rw [h]
      decide
    obtain ⟨d, hd, hlower⟩ := List.mem_map.mp hb
    have hdigit := Text.isDigit_of_mem_toDigits hd
    rw [← Text.toLower_eq_self_of_isDigit hdigit, hlower] at hdigit
    cases hdigit
  have hdigits : (Nat.toDigits 10 n).takeWhile Char.isDigit = Nat.toDigits 10 n := by
    rw [List.takeWhile_eq_self_iff]
    intro c
    apply Text.isDigit_of_mem_toDigits
  have hread : readWeight (toString n)
      = if 0 < Decimal.ofDigits (Nat.toDigits 10 n)
            ∧ Decimal.ofDigits (Nat.toDigits 10 n) < Nat.pow 2 32 then
          Decimal.ofDigits (Nat.toDigits 10 n)
        else 400 := by
    rw [readWeight, htrim, if_neg hbold, hdigits]
  rw [hread, Decimal.ofDigits_toDigits, if_pos ⟨hpos, hlt⟩]

namespace ClassList

/-! ### The last class of a list -/

/-- The last class of a list that says something about an aspect. -/
def IsLast (a : Aspect) (list name : String) : Prop :=
  ∃ before after, Text.wordsOf list = before ++ name :: after ∧ Names a name
    ∧ ∀ other ∈ after, ¬Names a other

variable {a : Aspect} {list : String}

theorem IsLast.declares {name : String} (h : IsLast a list name) :
  Declares a list
  := by
  obtain ⟨before, after, hwords, hname, -⟩ := h
  use name
  rw [hwords]
  use List.mem_append_right _ List.mem_cons_self

/-- What a list says last about an aspect is what its last class says that says something. -/
theorem last?_read?_eq_some_iff {value : a.Value} :
  last? a.read? list = some value ↔ ∃ name, IsLast a list name ∧ a.read? name = some value
  := by
  have hsilent (name : String) : a.read? name = none ↔ ¬Names a name := by
    rw [← isSome_read?_iff_names, Bool.not_eq_true, Option.isSome_eq_false_iff,
      Option.isNone_iff_eq_none]
  rw [last?_read?, List.getLast?_filterMap, List.findSome?_eq_some_iff]
  constructor
  · rintro ⟨after, name, before, hwords, hvalue, hafter⟩
    refine ⟨name, ⟨before.reverse, after.reverse, ?_, ?_, ?_⟩, hvalue⟩
    · rw [← List.reverse_reverse (Text.wordsOf list), hwords]
      simp
    · rw [← isSome_read?_iff_names, hvalue, Option.isSome_some]
    · intro other hother
      rw [← hsilent]
      apply hafter other (List.mem_reverse.mp hother)
  · rintro ⟨name, ⟨before, after, hwords, -, hafter⟩, hvalue⟩
    refine ⟨after.reverse, name, before.reverse, ?_, hvalue, ?_⟩
    · rw [hwords]
      simp
    · intro other hother
      rw [hsilent]
      apply hafter other (List.mem_reverse.mp hother)

/-- If the classes that say something of a kind are known, then what a list says last is of the kind
exactly if its last class is one of them. -/
theorem any_last?_read?_iff {kind : a.Value → Bool} {names : List String}
    (hnames : ∀ name, (a.read? name).any kind = true ↔ name ∈ names) :
  (last? a.read? list).any kind = true ↔ ∃ name ∈ names, IsLast a list name
  := by
  simp only [Option.any_eq_true, last?_read?_eq_some_iff] at hnames ⊢
  constructor
  · rintro ⟨value, ⟨name, hlast, hvalue⟩, hkind⟩
    use name, (hnames name).mp ⟨value, hvalue, hkind⟩
  · rintro ⟨name, hname, hlast⟩
    obtain ⟨value, hvalue, hkind⟩ := (hnames name).mpr hname
    use value, ⟨name, hlast, hvalue⟩

/-- The classes that say something of a kind are known once the table has been gone through. -/
theorem any_read?_iff_of_table {kind : a.Value → Bool} {names : List String}
    (hnames : ∀ name ∈ names, (a.read? name).any kind = true)
    (htable : ∀ name ∈ a.names, (a.read? name).any kind = true → name ∈ names) (name : String) :
  (a.read? name).any kind = true ↔ name ∈ names
  := by
  constructor
  · intro h
    apply htable name _ h
    rw [← Aspect.isSome_read?_iff]
    obtain ⟨value, hvalue, -⟩ := (Option.any_eq_true _ _).mp h
    rw [hvalue, Option.isSome_some]
  · apply hnames

/-! ### Large sizes and bold weights -/

/-- The classes of the sizes that are large at any weight. -/
def largeSizes : List String :=
  ["text-2xl", "text-3xl", "text-4xl", "text-5xl", "text-6xl", "text-7xl", "text-8xl", "text-9xl"]

/-- The classes of the weights that make a smaller size large. -/
def boldWeights : List String :=
  ["font-bold", "font-extrabold", "font-black"]

/-- Whether a size reaches 24 pixels. -/
def reaches24 (size : Nat) : Bool :=
  decide (24 ≤ (Decimal.mk size 0).toFloat)

/-- Whether a size reaches 18.66 pixels. -/
def reaches1866 (size : Nat) : Bool :=
  decide (18.66 ≤ (Decimal.mk size 0).toFloat)

/-- Whether a weight reaches 700. -/
def reaches700 (weight : Nat) : Bool :=
  decide (700 ≤ weight)

theorem reaches24_iff :
  (last? fontSizeOf? list).any reaches24 = true ↔ ∃ name ∈ largeSizes, IsLast .size list name
  := by
  apply any_last?_read?_iff (a := .size)
  apply any_read?_iff_of_table
  · decide +kernel
  · decide +kernel

/-- The sizes from 18.66 pixels on. -/
theorem reaches1866_iff :
  (last? fontSizeOf? list).any reaches1866 = true
    ↔ ∃ name ∈ "text-xl" :: largeSizes, IsLast .size list name
  := by
  apply any_last?_read?_iff (a := .size)
  apply any_read?_iff_of_table
  · decide +kernel
  · decide +kernel

/-- The weights from 700 on. -/
theorem reaches700_iff :
  (last? fontWeightOf? list).any reaches700 = true
    ↔ ∃ name ∈ boldWeights, IsLast .weight list name
  := by
  apply any_last?_read?_iff (a := .weight)
  apply any_read?_iff_of_table
  · decide +kernel
  · decide +kernel

/-- The weight of a list is a number that a style can name. -/
theorem weight_typography_bounds (list : String) :
  0 < (typography list).weight ∧ (typography list).weight < Nat.pow 2 32
  := by
  have table : ∀ name ∈ Aspect.weight.names, ∀ weight ∈ fontWeightOf? name,
      0 < weight ∧ weight < Nat.pow 2 32 := by
    decide +kernel
  have hweight : (typography list).weight = (last? fontWeightOf? list).getD 400 := rfl
  rw [hweight]
  cases hlast : last? fontWeightOf? list with
  | none => decide
  | some weight =>
    obtain ⟨name, ⟨-, -, -, hname, -⟩, hweight⟩ :=
      (last?_read?_eq_some_iff (a := .weight)).mp hlast
    apply table name hname.2 weight hweight

theorem kind_getD {α : Type} {kind : α → Bool} {default : α} (h : kind default = false)
    (value : Option α) :
  kind (value.getD default) = value.any kind
  := by
  cases value with
  | none => apply h
  | some value => rfl

/-- Whether a text is large is told by its size and weight as numbers. -/
theorem isLarge_typography (list : String) :
  isLarge (typography list).fontSize (typography list).fontWeight
    = (reaches24 (typography list).size
        || (reaches1866 (typography list).size && reaches700 (typography list).weight))
  := by
  obtain ⟨hpos, hlt⟩ := weight_typography_bounds list
  rw [isLarge, Typography.fontSize, readSize?_px, Typography.fontWeight,
    readWeight_toString hpos hlt]
  rfl

/-- A text is large exactly if the last class of its list that names a size is `text-2xl` or above,
or is `text-xl` while the last one that names a weight is bold or above.  Without a class that names
a size it is not large. -/
theorem isLarge_typography_iff (list : String) :
  (isLarge (typography list).fontSize (typography list).fontWeight = true
      ↔ (∃ name ∈ largeSizes, IsLast .size list name)
        ∨ IsLast .size list "text-xl" ∧ ∃ name ∈ boldWeights, IsLast .weight list name)
    ∧ (¬Declares .size list →
        isLarge (typography list).fontSize (typography list).fontWeight = false)
  := by
  -- A size from 24 pixels on also reaches 18.66 pixels.
  have absorb (large middle bold : Prop) :
      large ∨ (middle ∨ large) ∧ bold ↔ large ∨ middle ∧ bold := by
    tauto
  have h24 : reaches24 (typography list).size = true
      ↔ ∃ name ∈ largeSizes, IsLast .size list name := by
    rw [← reaches24_iff]
    apply Eq.congr_left
    apply kind_getD (by decide +kernel)
  have h1866 : reaches1866 (typography list).size = true
      ↔ IsLast .size list "text-xl" ∨ ∃ name ∈ largeSizes, IsLast .size list name := by
    rw [← List.exists_mem_cons_iff, ← reaches1866_iff]
    apply Eq.congr_left
    apply kind_getD (by decide +kernel)
  have h700 : reaches700 (typography list).weight = true
      ↔ ∃ name ∈ boldWeights, IsLast .weight list name := by
    rw [← reaches700_iff]
    apply Eq.congr_left
    apply kind_getD (by decide)
  have hlarge : isLarge (typography list).fontSize (typography list).fontWeight = true
      ↔ (∃ name ∈ largeSizes, IsLast .size list name)
        ∨ IsLast .size list "text-xl" ∧ ∃ name ∈ boldWeights, IsLast .weight list name := by
    rw [isLarge_typography, Bool.or_eq_true, Bool.and_eq_true, h24, h1866, h700, absorb]
  use hlarge
  intro hsize
  rw [Bool.eq_false_iff, Ne, hlarge]
  rintro (⟨name, -, hlast⟩ | ⟨hlast, -⟩)
  · apply hsize hlast.declares
  · apply hsize hlast.declares

/-- A size for wide screens does not count. -/
theorem isLarge_typography_iff_no_size :
  ¬Declares .size "text-gray-500 font-black md:text-4xl"
    ∧ isLarge (typography "text-gray-500 font-black md:text-4xl").fontSize
        (typography "text-gray-500 font-black md:text-4xl").fontWeight = false
  := by
  have hsize : ¬Declares .size "text-gray-500 font-black md:text-4xl" := by
    decide +kernel
  use hsize
  apply (isLarge_typography_iff _).2 hsize

example :
  ["text-lg font-bold", "text-xl font-bold md:text-sm", "font-bold text-xl font-light",
      "text-2xl text-gray-500", "text-2xl text-base font-black"].map
      (fun list => isLarge (typography list).fontSize (typography list).fontWeight)
    = [false, true, false, true, false]
  := by
  decide +kernel

end ClassList

end AccessAudit
