/-!
# Letters without case

Simple case folding, as far as it leads to an ASCII letter: the capital letters `A` to `Z`, the
long s and the kelvin sign fold to the small ASCII letter, all other characters to themselves.  A
text of ASCII letters is found without regard to case by comparing folded characters.
-/

namespace AccessAudit.Text

/-- The small ASCII letter that a character folds to, or the character itself. -/
def fold (c : Char) : Char :=
  if c = '\u017f' then 's'
  else if c = '\u212a' then 'k'
  else c.toLower

/-- Small ASCII form of a text; other characters stay. -/
def lower (s : String) : String :=
  String.ofList (s.toList.map Char.toLower)

/-- Capital ASCII form of a text; other characters stay. -/
def upper (s : String) : String :=
  String.ofList (s.toList.map Char.toUpper)

/-- Equality up to the case of ASCII letters. -/
def sameLetters (s t : String) : Bool :=
  s.toList.map Char.toLower == t.toList.map Char.toLower

end AccessAudit.Text
