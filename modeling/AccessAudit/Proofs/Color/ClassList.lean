import AccessAudit.Color.ClassList
import AccessAudit.Proofs.Color.Spelling
import AccessAudit.Proofs.Text.Lines

/-!
# What class lists say

The classes of a list are read one after the other, and each of them may replace what an earlier one
has said: about the colour of the text, its background, its size, or its weight.  The classes that
say something about one of these aspects form a table, and no class is in two tables.  So the last
class of a table decides, whatever the other tables hold: of two lists put together the second one
decides on what it speaks of, classes outside the tables can be put in anywhere, and classes of
different tables can change places.
-/

namespace AccessAudit

/-! ### Words of two texts -/

namespace Text

theorem words_append_cons (s t : List Char) {c : Char} (hc : isBlank c = true) :
  words (s ++ c :: t) = words s ++ words t
  := by
  rw [words, words, words, pieces_eq_splitOnP, pieces_eq_splitOnP, pieces_eq_splitOnP,
    List.splitOnP_append_cons s t hc, List.filter_append]

/-- Blanks before a text add no word. -/
theorem words_append_of_blank {w : List Char} (hw : ∀ c ∈ w, isBlank c = true) (t : List Char) :
  words (w ++ t) = words t
  := by
  induction w with
  | nil => rfl
  | cons c w ih =>
    have hcons := words_append_cons [] (w ++ t) (hw c List.mem_cons_self)
    rw [List.nil_append] at hcons
    rw [List.cons_append, hcons, ih (fun c hc => hw c (List.mem_cons_of_mem _ hc))]
    rfl

/-- Two texts with blanks between them have the words of both. -/
theorem wordsOf_append (s t : String) {w : String} (hne : w ≠ "")
    (hw : ∀ c ∈ w.toList, isBlank c = true) :
  wordsOf (s ++ w ++ t) = wordsOf s ++ wordsOf t
  := by
  have hwords : words (s ++ w ++ t).toList = words s.toList ++ words t.toList := by
    cases hlist : w.toList with
    | nil => exact absurd (String.toList_eq_nil_iff.mp hlist) hne
    | cons c blanks =>
      rw [hlist] at hw
      rw [String.toList_append, String.toList_append, hlist, List.append_assoc, List.cons_append,
        words_append_cons _ _ (hw c List.mem_cons_self),
        words_append_of_blank (fun c hc => hw c (List.mem_cons_of_mem _ hc))]
  rw [wordsOf, hwords, List.map_append, wordsOf, wordsOf]

/-- There is a value for what follows `lead` exactly if the text is `lead` and something that has a
value. -/
theorem isSome_after?_bind_iff {α : Type} {value? : String → Option α} {lead text : String} :
  ((after? lead text).bind value?).isSome = true
    ↔ ∃ key, (value? key).isSome = true ∧ lead ++ key = text
  := by
  constructor
  · intro h
    obtain ⟨value, h⟩ := Option.isSome_iff_exists.mp h
    obtain ⟨key, hkey, hvalue⟩ := Option.bind_eq_some_iff.mp h
    use key, Option.isSome_of_eq_some hvalue
    apply (eq_append_of_after? hkey).symm
  · rintro ⟨key, hvalue, rfl⟩
    simpa using hvalue

end Text

namespace ClassList

/-! ### Aspects -/

/-- What a class can say something about. -/
inductive Aspect where
  | foreground
  | background
  | size
  | weight
  deriving DecidableEq, Repr

namespace Aspect

/-- What is said about an aspect. -/
abbrev Value : Aspect → Type
  | foreground => Swatch
  | background => Swatch
  | size => Nat
  | weight => Nat

/-- What a class says about an aspect. -/
def read? : (a : Aspect) → String → Option a.Value
  | foreground => foregroundOf?
  | background => backgroundOf?
  | size => fontSizeOf?
  | weight => fontWeightOf?

/-- What the classes that say something about an aspect begin with. -/
def lead : Aspect → String
  | foreground => "text-"
  | background => "bg-"
  | size => "text-"
  | weight => "font-"

/-- What follows the beginning of these classes: the tokens of the palette, or a scale. -/
def keys : Aspect → List String
  | foreground => Palette.swatches.map Swatch.token
  | background => Palette.swatches.map Swatch.token
  | size => fontSizes.map Prod.fst
  | weight => fontWeights.map Prod.fst

/-- The table of the classes that say something about an aspect. -/
def names (a : Aspect) : List String :=
  a.keys.map fun key => a.lead ++ key

/-- A class says something about an aspect exactly if it is in its table. -/
theorem isSome_read?_iff (a : Aspect) (name : String) :
  (a.read? name).isSome = true ↔ name ∈ a.names
  := by
  have hlookup (token : String) : (Palette.lookup? token).isSome = true
      ↔ token ∈ Palette.swatches.map Swatch.token := by
    simp [Palette.lookup?]
  have hentry (key : String) (table : List (String × Nat)) :
      (List.lookup key table).isSome = true ↔ key ∈ table.map Prod.fst := by
    simp [List.lookup_isSome_iff]
  rw [names, List.mem_map]
  cases a with
  | foreground => simp only [read?, foregroundOf?, Text.isSome_after?_bind_iff, hlookup, keys, lead]
  | background => simp only [read?, backgroundOf?, Text.isSome_after?_bind_iff, hlookup, keys, lead]
  | size => simp only [read?, fontSizeOf?, Text.isSome_after?_bind_iff, hentry, keys, lead]
  | weight => simp only [read?, fontWeightOf?, Text.isSome_after?_bind_iff, hentry, keys, lead]

/-- No class of a table has a colon. -/
theorem colon_not_mem {a : Aspect} {name : String} (h : name ∈ a.names) :
  ':' ∉ name.toList
  := by
  have hlead : ':' ∉ a.lead.toList := by
    cases a <;> decide
  have hkeys : ∀ key ∈ a.keys, ':' ∉ key.toList := by
    cases a <;> decide +kernel
  obtain ⟨key, hkey, rfl⟩ := List.mem_map.mp h
  rw [String.toList_append, List.mem_append, not_or]
  use hlead
  apply hkeys key hkey

/-- No class is in two tables: it has one beginning, and the scale of sizes has no token of the
palette. -/
theorem eq_of_mem_names {a b : Aspect} {name : String} (ha : name ∈ a.names)
    (hb : name ∈ b.names) :
  a = b
  := by
  have leads : ∀ a b : Aspect, a.lead.toList <+: b.lead.toList → a.lead = b.lead := by
    intro a b
    cases a <;> cases b <;> decide
  have apart : a.lead = b.lead → a ≠ b → ∀ key ∈ a.keys, key ∉ b.keys := by
    cases a <;> cases b <;> decide +kernel
  obtain ⟨key, hkey, rfl⟩ := List.mem_map.mp ha
  obtain ⟨key', hkey', heq⟩ := List.mem_map.mp hb
  have hlist := congrArg String.toList heq
  rw [String.toList_append, String.toList_append] at hlist
  have hlead : a.lead = b.lead := by
    rcases List.prefix_or_prefix_of_prefix (List.prefix_append _ _)
      (hlist ▸ List.prefix_append b.lead.toList key'.toList) with h | h
    · apply leads a b h
    · apply (leads b a h).symm
  rw [hlead, List.append_cancel_left_eq, String.toList_inj] at hlist
  by_contra hne
  apply apart hlead hne key hkey
  rw [← hlist]
  apply hkey'

theorem read?_eq_none {a : Aspect} {name : String} (h : name ∉ a.names) :
  a.read? name = none
  := by
  rw [← isSome_read?_iff] at h
  simpa using h

end Aspect

/-- A class without a colon that says something about an aspect. -/
def Names (a : Aspect) (name : String) : Prop :=
  ':' ∉ name.toList ∧ name ∈ a.names

/-- A list with a class that says something about an aspect. -/
def Declares (a : Aspect) (list : String) : Prop :=
  ∃ name ∈ Text.wordsOf list, Names a name

theorem isSome_read?_iff_names {a : Aspect} {name : String} :
  (a.read? name).isSome = true ↔ Names a name
  := by
  rw [Aspect.isSome_read?_iff, Names, iff_and_self]
  apply Aspect.colon_not_mem

instance (a : Aspect) (name : String) : Decidable (Names a name) :=
  inferInstanceAs (Decidable (_ ∧ _))

instance (a : Aspect) (list : String) : Decidable (Declares a list) :=
  inferInstanceAs (Decidable (∃ name ∈ Text.wordsOf list, Names a name))

/-! ### The last class of a table -/

section

variable {a : Aspect} {list list' : String}

/-- Classes with a colon need not be passed over: they are in no table. -/
theorem last?_read? (a : Aspect) (list : String) :
  last? a.read? list = ((Text.wordsOf list).filterMap a.read?).getLast?
  := by
  rw [last?, plainClasses, List.filterMap_filter]
  congr 1
  apply List.filterMap_congr
  intro name _
  split
  · rfl
  · rename_i hcolon
    symm
    apply Aspect.read?_eq_none
    intro hname
    apply hcolon
    simpa using Aspect.colon_not_mem hname

theorem isSome_last?_read?_iff :
  (last? a.read? list).isSome = true ↔ Declares a list
  := by
  rw [last?_read?, List.getLast?_filterMap, List.findSome?_isSome_iff]
  simp only [List.mem_reverse, isSome_read?_iff_names, Declares]

/-- Of two lists put together the second one decides on what it speaks of. -/
theorem last?_read?_append (a : Aspect) (s t : String) {w : String} (hne : w ≠ "")
    (hw : ∀ c ∈ w.toList, Text.isBlank c = true) :
  last? a.read? (s ++ w ++ t) = last? a.read? (if Declares a t then t else s)
  := by
  have hor : last? a.read? (s ++ w ++ t) = (last? a.read? t).or (last? a.read? s) := by
    rw [last?_read?, Text.wordsOf_append s t hne hw, List.filterMap_append, List.getLast?_append,
      ← last?_read?, ← last?_read?]
  rw [hor]
  split
  · rename_i hdeclares
    apply Option.or_of_isSome (isSome_last?_read?_iff.mpr hdeclares)
  · rename_i hdeclares
    rw [← isSome_last?_read?_iff, Bool.not_eq_true, Option.isSome_eq_false_iff,
      Option.isNone_iff_eq_none] at hdeclares
    rw [hdeclares, Option.none_or]

/-- Lists say the same about an aspect if between common classes they have classes that say the same
about it. -/
theorem last?_read?_eq {before after names names' : List String}
    (hlist : Text.wordsOf list = before ++ names ++ after)
    (hlist' : Text.wordsOf list' = before ++ names' ++ after)
    (hnames : names.filterMap a.read? = names'.filterMap a.read?) :
  last? a.read? list = last? a.read? list'
  := by
  rw [last?_read?, last?_read?, hlist, hlist', List.filterMap_append, List.filterMap_append,
    List.filterMap_append, List.filterMap_append, hnames]

end

theorem colours_eq_last? (list : String) :
  colours list = ⟨last? Aspect.foreground.read? list, last? Aspect.background.read? list⟩
  := rfl

theorem typography_eq_last? (list : String) :
  typography list
    = ⟨(last? Aspect.size.read? list).getD (16 : Nat),
       (last? Aspect.weight.read? list).getD (400 : Nat)⟩
  := rfl

/-- Two lists that say the same of a text. -/
structure Agree (list list' : String) : Prop where
  colours_eq : colours list = colours list'
  typography_eq : typography list = typography list'

theorem agree_of_last?_eq {list list' : String}
    (h : ∀ a : Aspect, last? a.read? list = last? a.read? list') :
  Agree list list'
  := by
  constructor
  · rw [colours_eq_last?, colours_eq_last?, h, h]
  · rw [typography_eq_last?, typography_eq_last?, h, h]

/-- A class that is in no table says nothing, wherever it stands. -/
theorem agree_of_insert {list list' : String} {before after : List String} {name : String}
    (hlist : Text.wordsOf list = before ++ name :: after)
    (hlist' : Text.wordsOf list' = before ++ after)
    (hname : ∀ a, ¬Names a name) :
  Agree list list'
  := by
  have hwith : Text.wordsOf list = before ++ [name] ++ after := by
    rw [hlist, List.append_assoc, List.singleton_append]
  have hwithout : Text.wordsOf list' = before ++ [] ++ after := by
    rw [hlist', List.append_nil]
  apply agree_of_last?_eq
  intro a
  have hnone : a.read? name = none := by
    apply Aspect.read?_eq_none
    intro hmem
    apply hname a
    use Aspect.colon_not_mem hmem
  apply last?_read?_eq hwith hwithout
  rw [List.filterMap_cons_none hnone]

/-- Classes of two tables can change places. -/
theorem agree_of_swap {list list' : String} {before after : List String} {first second : String}
    (hlist : Text.wordsOf list = before ++ first :: second :: after)
    (hlist' : Text.wordsOf list' = before ++ second :: first :: after)
    {b c : Aspect} (hne : b ≠ c) (hfirst : first ∈ b.names) (hsecond : second ∈ c.names) :
  Agree list list'
  := by
  have hwords : Text.wordsOf list = before ++ [first, second] ++ after := by
    simpa using hlist
  have hwords' : Text.wordsOf list' = before ++ [second, first] ++ after := by
    simpa using hlist'
  apply agree_of_last?_eq
  intro a
  apply last?_read?_eq hwords hwords'
  -- An aspect is not both that of the first and that of the second class.
  by_cases ha : a = b
  · have hnone : a.read? second = none := by
      apply Aspect.read?_eq_none
      intro hmem
      apply hne (ha.symm.trans (Aspect.eq_of_mem_names hmem hsecond))
    simp [hnone, List.filterMap_cons]
  · have hnone : a.read? first = none := by
      apply Aspect.read?_eq_none
      intro hmem
      apply ha (Aspect.eq_of_mem_names hmem hfirst)
    simp [hnone, List.filterMap_cons]

/-! ### Class after class -/

/-- The colours of a list that goes on with a class: a class that begins with `text-` is tried as a
colour of the text only, any other one as a background. -/
def Colours.declare (c : Colours) (name : String) : Colours :=
  match Text.after? "text-" name with
  | some token =>
    match Palette.lookup? token with
    | some s => { c with foreground := some s }
    | none => c
  | none =>
    match Text.after? "bg-" name with
    | some token =>
      match Palette.lookup? token with
      | some s => { c with background := some s }
      | none => c
    | none => c

/-- The typography of a list that goes on with a class: the class is tried as a weight only if it is
no size. -/
def Typography.declare (t : Typography) (name : String) : Typography :=
  match fontSizeOf? name with
  | some size => { t with size := size }
  | none =>
    match fontWeightOf? name with
    | some weight => { t with weight := weight }
    | none => t

/-- No class is tried for one aspect and named by another. -/
theorem Colours.declare_eq (c : Colours) (name : String) :
  c.declare name
    = ⟨(foregroundOf? name).or c.foreground, (backgroundOf? name).or c.background⟩
  := by
  rw [declare, foregroundOf?, backgroundOf?]
  cases htext : Text.after? "text-" name with
  | some token =>
    have hback : Text.after? "bg-" name = none := by
      rw [Text.eq_append_of_after? htext]
      simp [Text.after?, Text.rest?]
    cases hlookup : Palette.lookup? token <;> simp [hback, hlookup]
  | none =>
    cases hback : Text.after? "bg-" name with
    | some token => cases hlookup : Palette.lookup? token <;> simp [hlookup]
    | none => simp

/-- No size is a weight. -/
theorem Typography.declare_eq (t : Typography) (name : String) :
  t.declare name = ⟨(fontSizeOf? name).getD t.size, (fontWeightOf? name).getD t.weight⟩
  := by
  rw [declare]
  cases hsize : fontSizeOf? name with
  | some size =>
    have hmem : name ∈ Aspect.size.names := by
      rw [← Aspect.isSome_read?_iff, Aspect.read?, hsize, Option.isSome_some]
    have hweight : fontWeightOf? name = none := by
      apply Aspect.read?_eq_none (a := .weight)
      intro hmem'
      cases Aspect.eq_of_mem_names hmem hmem'
    simp [hweight]
  | none => cases hweight : fontWeightOf? name <;> simp

/-- What a list names last is what the rest of it names last, or else its first class. -/
theorem getLast?_filterMap_cons {α : Type} (named : String → Option α) (name : String)
    (names : List String) :
  ((name :: names).filterMap named).getLast?
    = (names.filterMap named).getLast?.or (named name)
  := by
  rw [List.filterMap_cons]
  cases named name with
  | none => simp
  | some value => rw [List.getLast?_cons, ← Option.or_some]

/-- The colours after some classes. -/
theorem foldl_coloursDeclare (names : List String) (c : Colours) :
  names.foldl Colours.declare c
    = ⟨(names.filterMap foregroundOf?).getLast?.or c.foreground,
       (names.filterMap backgroundOf?).getLast?.or c.background⟩
  := by
  induction names generalizing c with
  | nil => rfl
  | cons name names ih =>
    rw [List.foldl_cons, ih, Colours.declare_eq, getLast?_filterMap_cons, getLast?_filterMap_cons,
      Option.or_assoc, Option.or_assoc]

/-- The typography after some classes. -/
theorem foldl_typographyDeclare (names : List String) (t : Typography) :
  names.foldl Typography.declare t
    = ⟨(names.filterMap fontSizeOf?).getLast?.getD t.size,
       (names.filterMap fontWeightOf?).getLast?.getD t.weight⟩
  := by
  induction names generalizing t with
  | nil => rfl
  | cons name names ih =>
    rw [List.foldl_cons, ih, Typography.declare_eq, getLast?_filterMap_cons,
      getLast?_filterMap_cons, Option.getD_or, Option.getD_or]

theorem foldl_declare_eq_colours (list : String) :
  (plainClasses list).foldl Colours.declare ⟨none, none⟩ = colours list
  := by
  rw [foldl_coloursDeclare, Option.or_none, Option.or_none]
  rfl

theorem foldl_declare_eq_typography (list : String) :
  (plainClasses list).foldl Typography.declare ⟨16, 400⟩ = typography list
  := by
  rw [foldl_typographyDeclare]
  rfl

/-! ### Lists put together -/

/-- The last class of a table decides.  The colours and the typography of a list are those after all
its classes, one after the other.  Of two lists put together the second one decides on each aspect
that it speaks of, and the first one on the others.  A class with a colon or outside the tables can
be put in anywhere, and two neighbouring classes of different tables can change places; no class is
in two tables. -/
theorem lastClass_decides :
  (∀ list, (plainClasses list).foldl Colours.declare ⟨none, none⟩ = colours list
      ∧ (plainClasses list).foldl Typography.declare ⟨16, 400⟩ = typography list)
    ∧ (∀ s w t : String, w ≠ "" → (∀ c ∈ w.toList, Text.isBlank c = true) →
        (colours (s ++ w ++ t)).foreground
            = (colours (if Declares .foreground t then t else s)).foreground
          ∧ (colours (s ++ w ++ t)).background
            = (colours (if Declares .background t then t else s)).background
          ∧ (typography (s ++ w ++ t)).size = (typography (if Declares .size t then t else s)).size
          ∧ (typography (s ++ w ++ t)).weight
            = (typography (if Declares .weight t then t else s)).weight)
    ∧ (∀ (list list' name : String) (before after : List String),
        Text.wordsOf list = before ++ name :: after → Text.wordsOf list' = before ++ after →
        (':' ∈ name.toList ∨ ∀ a : Aspect, name ∉ a.names) →
          Agree list list')
    ∧ (∀ (list list' first second : String) (before after : List String) (a b : Aspect),
        Text.wordsOf list = before ++ first :: second :: after →
        Text.wordsOf list' = before ++ second :: first :: after →
        a ≠ b → first ∈ a.names → second ∈ b.names →
          Agree list list')
    ∧ ∀ (a b : Aspect) (name : String), name ∈ a.names → name ∈ b.names → a = b
  := by
  refine ⟨?loops, ?together, ?inserted, ?swapped, ?apart⟩
  case loops =>
    intro list
    constructor
    · apply foldl_declare_eq_colours
    · apply foldl_declare_eq_typography
  case together =>
    intro s w t hne hw
    simp only [colours_eq_last?, typography_eq_last?, last?_read?_append _ s t hne hw, and_self]
  case inserted =>
    rintro list list' name before after hlist hlist' hname
    apply agree_of_insert hlist hlist'
    rintro a ⟨hcolon, hmem⟩
    rcases hname with hname | hname
    · apply hcolon hname
    · apply hname a hmem
  case swapped =>
    intro list list' first second before after a b hlist hlist' hne hfirst hsecond
    apply agree_of_swap hlist hlist' hne hfirst hsecond
  case apart =>
    intro a b name
    apply Aspect.eq_of_mem_names

/-- A size after a colour leaves the colour, a class for hovering says nothing, and a size and a
colour can change places. -/
theorem lastClass_decides_size_after_colour :
  (colours ("text-gray-300 font-bold" ++ " \n" ++ "text-lg hover:text-white")).foreground
      = (colours "text-gray-300 font-bold").foreground
    ∧ (typography ("text-gray-300 font-bold" ++ " \n" ++ "text-lg hover:text-white")).size
      = (typography "text-lg hover:text-white").size
    ∧ Agree "text-lg hover:text-white bg-white" "text-lg bg-white"
    ∧ Agree "text-lg text-gray-700" "text-gray-700 text-lg"
  := by
  obtain ⟨-, together, inserted, swapped, -⟩ := lastClass_decides
  have hblank : ∀ c ∈ " \n".toList, Text.isBlank c = true := List.all_eq_true.mp (by decide)
  obtain ⟨hforeground, -, hsize, -⟩ :=
    together "text-gray-300 font-bold" " \n" "text-lg hover:text-white" (by decide) hblank
  rw [if_neg (by decide +kernel)] at hforeground
  rw [if_pos (by decide +kernel)] at hsize
  use hforeground, hsize
  constructor
  · apply inserted _ _ "hover:text-white" ["text-lg"] ["bg-white"] (by decide +kernel)
      (by decide +kernel)
    apply Or.inl
    decide
  · apply swapped _ _ "text-lg" "text-gray-700" [] [] .size .foreground (by decide +kernel)
      (by decide +kernel)
    · decide
    · decide +kernel
    · decide +kernel

end ClassList

end AccessAudit
