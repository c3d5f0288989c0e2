import AccessAudit.Color.Palette

/-!
# Class lists

What a whitespace-separated list of utility classes says about a text: its colour, its background,
its font size and its font weight.  Each of the four is set by the last class that names it.
Classes with a colon apply only in some state and are passed over.
-/

namespace AccessAudit.ClassList

/-- The classes of a list that apply in every state. -/
def plainClasses (list : String) : List String :=
  (Text.wordsOf list).filter fun name => !name.toList.contains ':'

/-- The text colour that a class names. -/
def foregroundOf? (name : String) : Option Swatch :=
  (Text.after? "text-" name).bind Palette.lookup?

/-- The background that a class names. -/
def backgroundOf? (name : String) : Option Swatch :=
  (Text.after? "bg-" name).bind Palette.lookup?

/-- Pixel sizes of the classes `text-…`. -/
def fontSizes : List (String × Nat) :=
  [("xs", 12), ("sm", 14), ("base", 16), ("lg", 18), ("xl", 20), ("2xl", 24), ("3xl", 30),
   ("4xl", 36), ("5xl", 48), ("6xl", 60), ("7xl", 72), ("8xl", 96), ("9xl", 128)]

/-- Weights of the classes `font-…`. -/
def fontWeights : List (String × Nat) :=
  [("thin", 100), ("extralight", 200), ("light", 300), ("normal", 400), ("medium", 500),
   ("semibold", 600), ("bold", 700), ("extrabold", 800), ("black", 900)]

/-- The pixel size that a class names. -/
def fontSizeOf? (name : String) : Option Nat :=
  (Text.after? "text-" name).bind fun key => List.lookup key fontSizes

/-- The weight that a class names. -/
def fontWeightOf? (name : String) : Option Nat :=
  (Text.after? "font-" name).bind fun key => List.lookup key fontWeights

/-- What the last class that names something names. -/
def last? {α : Type} (named : String → Option α) (list : String) : Option α :=
  ((plainClasses list).filterMap named).getLast?

/-- The colours that a class list declares. -/
structure Colours where
  foreground : Option Swatch
  background : Option Swatch
  deriving DecidableEq, Repr

/-- The colours of a class list. -/
def colours (list : String) : Colours :=
  ⟨last? foregroundOf? list, last? backgroundOf? list⟩

/-- Size and weight of a text. -/
structure Typography where
  size : Nat
  weight : Nat
  deriving DecidableEq, Repr

/-- The typography of a class list: 16 pixels and weight 400 where it says nothing. -/
def typography (list : String) : Typography :=
  ⟨(last? fontSizeOf? list).getD 16, (last? fontWeightOf? list).getD 400⟩

/-- The size as a style writes it. -/
def Typography.fontSize (t : Typography) : String :=
  toString t.size ++ "px"

/-- The weight as a style writes it. -/
def Typography.fontWeight (t : Typography) : String :=
  toString t.weight

end AccessAudit.ClassList
