import AccessAudit.Data
import AccessAudit.Text.Affix
import AccessAudit.Text.Radix

/-!
# Numbers and dates of TOML

Whether a word is a number or a date.  Whole numbers have at most 64 bits with their sign, digits
may have single underscores between them, and dates have to exist.
-/

namespace AccessAudit.Toml

/-! ### Numbers -/

/-- Digits of a radix with single underscores between them, without the underscores. -/
def digits? (radix : Nat) : List Char → Option (List Char)
  | [] => none
  | c :: rest =>
    if (Text.digitValue? radix c).isNone then none
    else match rest with
      | [] => some [c]
      | '_' :: rest => (digits? radix rest).map (c :: ·)
      | rest => (digits? radix rest).map (c :: ·)

/-- A word without its sign, and whether the sign is a minus. -/
def splitSign : List Char → Bool × List Char
  | '-' :: rest => (true, rest)
  | '+' :: rest => (false, rest)
  | rest => (false, rest)

/-- Decimal digits without a zero before others. -/
def whole? (word : List Char) : Option (List Char) := do
  let digits ← digits? 10 word
  match digits with
  | '0' :: _ :: _ => none
  | digits => some digits

/-- Whether digits of a radix denote a number of at most 63 bits. -/
def fitsRadix (radix : Nat) (word : List Char) : Bool :=
  ((digits? radix word).bind (Text.natural? radix)).any fun n => n < Nat.pow 2 63

/-- Whether a word is a whole number. -/
def isInteger : List Char → Bool
  | '0' :: 'x' :: word => fitsRadix 16 word
  | '0' :: 'o' :: word => fitsRadix 8 word
  | '0' :: 'b' :: word => fitsRadix 2 word
  | word =>
    let (negative, word) := splitSign word
    ((whole? word).bind (Text.natural? 10)).any fun n =>
      n < Nat.pow 2 63 || (negative && n == Nat.pow 2 63)

/-- The digits of an exponent with its mark, and its sign. -/
def exponent? : List Char → Option (List Char)
  | [] => some []
  | c :: rest =>
    if c = 'e' ∨ c = 'E' then
      let (negative, word) := splitSign rest
      (digits? 10 word).map fun digits => 'e' :: (if negative then ['-'] else []) ++ digits
    else none

/-- The digits of a fraction with its point, and the exponent after it. -/
def fraction? : List Char → Option (List Char)
  | '.' :: rest => do
    let (word, rest) := rest.span fun c => c.isDigit || c == '_'
    let digits ← digits? 10 word
    let exponent ← exponent? rest
    some ('.' :: digits ++ exponent)
  | rest => if rest.isEmpty then none else exponent? rest

/-- Whether a word is a number with a fraction or an exponent.  It must not be too large for a
double. -/
def isFloat (word : List Char) : Bool :=
  let (negative, word) := splitSign word
  let (front, rest) := word.span fun c => c.isDigit || c == '_'
  let value := do
    let digits ← whole? front
    let scale ← fraction? rest
    Decimal.readFloat? (digits ++ scale)
  word == ['i', 'n', 'f'] || word == ['n', 'a', 'n']
    || value.any fun x => negative || x.isFinite

/-! ### Dates and times -/

/-- Exactly two digits at the beginning of a word, and what follows them. -/
def pair? : List Char → Option (Nat × List Char)
  | a :: b :: rest => do
    let n ← Text.natural? 10 [a, b]
    some (n, rest)
  | _ => none

/-- The number of days of a month. -/
def daysOf (year month : Nat) : Nat :=
  let leap := year % 4 == 0 && (year % 100 != 0 || year % 400 == 0)
  if month = 2 then (if leap then 29 else 28)
  else if [4, 6, 9, 11].contains month then 30
  else 31

/-- What follows a date at the beginning of a word. -/
def afterDate? (word : List Char) : Option (List Char) := do
  let year ← Text.natural? 10 (word.take 4)
  let rest ← Text.rest? ['-'] (word.drop 4)
  let (month, rest) ← pair? rest
  let rest ← Text.rest? ['-'] rest
  let (day, rest) ← pair? rest
  if 4 ≤ word.length ∧ 1 ≤ month ∧ month ≤ 12 ∧ 1 ≤ day ∧ day ≤ daysOf year month then some rest
  else none

/-- A fraction of a second may follow. -/
def afterSecond? : List Char → Option (List Char)
  | '.' :: rest =>
    let (digits, rest) := rest.span Char.isDigit
    if digits.isEmpty then none else some rest
  | rest => some rest

/-- What follows a time of day at the beginning of a word. -/
def afterTime? (word : List Char) : Option (List Char) := do
  let (hour, rest) ← pair? word
  let rest ← Text.rest? [':'] rest
  let (minute, rest) ← pair? rest
  let rest ← Text.rest? [':'] rest
  let (second, rest) ← pair? rest
  if hour ≤ 23 ∧ minute ≤ 59 ∧ second ≤ 60 then afterSecond? rest else none

/-- Whether a text is nothing, or the offset of a time from the common one. -/
def isOffset : List Char → Bool
  | [] => true
  | [c] => c == 'Z' || c == 'z'
  | c :: rest =>
    let value := do
      let (hour, rest) ← pair? rest
      let rest ← Text.rest? [':'] rest
      let (minute, rest) ← pair? rest
      if hour ≤ 23 ∧ minute ≤ 59 ∧ rest.isEmpty then some () else none
    (c == '+' || c == '-') && value.isSome

/-- Whether a word is a time with an optional offset. -/
def isTimeWithOffset (word : List Char) : Bool :=
  (afterTime? word).any isOffset

/-- Whether a word is a date, a time, or a date and a time. -/
def isDate (word : List Char) : Bool :=
  match afterDate? word with
  | some [] => true
  | some (c :: rest) => (c == 'T' || c == 't') && isTimeWithOffset rest
  | none => (afterTime? word).any List.isEmpty

/-! ### Words -/

/-- The value of a word that is neither a string, a list nor a table. -/
def wordValue? (word : List Char) : Option Data :=
  if word = ['t', 'r', 'u', 'e'] then some (.bool true)
  else if word = ['f', 'a', 'l', 's', 'e'] then some (.bool false)
  else if isInteger word || isFloat word then some .number
  else if isDate word then some .date
  else none

end AccessAudit.Toml
