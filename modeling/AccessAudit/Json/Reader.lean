import AccessAudit.Json.Basic
import AccessAudit.Text.Radix

/-!
# Reading JSON

The grammar of JSON with nothing added: blanks are space, tab, line feed and carriage return,
control characters in strings are refused, surrogate escapes come in pairs, and nothing but blanks
follows the value.
-/

namespace AccessAudit.Json

/-- Blanks of JSON. -/
def isSpace (c : Char) : Bool :=
  c == ' ' || c == '\n' || c == '\t' || c == '\r'

/-- A text without the blanks at its beginning. -/
def skipSpace (s : List Char) : List Char :=
  s.dropWhile isSpace

/-- The code of four hexadecimal digits. -/
def unit? (a b c d : Char) : Option Nat := do
  return Text.ofDigitValues 16
    [← Text.hexValue? a, ← Text.hexValue? b, ← Text.hexValue? c, ← Text.hexValue? d]

/-- The character of a one-letter escape. -/
def simpleEscape? (c : Char) : Option Char :=
  if c = '"' then some '"'
  else if c = '\\' then some '\\'
  else if c = '/' then some '/'
  else if c = 'b' then some '\x08'
  else if c = 'f' then some '\x0c'
  else if c = 'n' then some '\n'
  else if c = 'r' then some '\r'
  else if c = 't' then some '\t'
  else none

/-- The first half of a surrogate pair. -/
def isLead (n : Nat) : Bool :=
  0xd800 ≤ n && n < 0xdc00

/-- The second half of a surrogate pair. -/
def isTrail (n : Nat) : Bool :=
  0xdc00 ≤ n && n < 0xe000

/-- The characters of a string after its opening quote, and the text after its closing quote. -/
def readChars : List Char → Option (List Char × List Char)
  | [] => none
  | '"' :: rest => some ([], rest)
  | '\\' :: 'u' :: a :: b :: c :: d :: rest =>
    match unit? a b c d with
    | none => none
    | some n =>
      if isTrail n then none
      else if isLead n then
        match rest with
        | '\\' :: 'u' :: e :: f :: g :: h :: rest =>
          match unit? e f g h with
          | none => none
          | some m =>
            if isTrail m then do
              let (cs, after) ← readChars rest
              some (Char.ofNat (0x10000 + (n - 0xd800) * 0x400 + (m - 0xdc00)) :: cs, after)
            else none
        | _ => none
      else do
        let (cs, after) ← readChars rest
        some (Char.ofNat n :: cs, after)
  | '\\' :: c :: rest =>
    match simpleEscape? c with
    | none => none
    | some c => do
      let (cs, after) ← readChars rest
      some (c :: cs, after)
  | c :: rest =>
    if c.toNat < 32 ∨ c = '\\' then none
    else do
      let (cs, after) ← readChars rest
      some (c :: cs, after)

/-- Digits with no zero before other digits. -/
def isWhole : List Char → Bool
  | [] => false
  | ['0'] => true
  | c :: rest => c != '0' && (c :: rest).all Char.isDigit

/-- The fraction of a number, if the text goes on with a point; it has at least one digit. -/
def readFraction : List Char → Option (List Char × List Char)
  | '.' :: rest =>
    let (digits, rest) := rest.span Char.isDigit
    if digits.isEmpty then none else some (digits, rest)
  | rest => some ([], rest)

/-- A sign before an exponent. -/
def readSign : List Char → Bool × List Char
  | '-' :: rest => (true, rest)
  | '+' :: rest => (false, rest)
  | rest => (false, rest)

/-- The exponent of a number, if the text goes on with its mark; it has at least one digit. -/
def readExponent (s : List Char) : Option (Option Int × List Char) :=
  match s with
  | c :: rest =>
    if c = 'e' ∨ c = 'E' then
      let (negative, rest) := readSign rest
      let (digits, rest) := rest.span Char.isDigit
      if digits.isEmpty then none
      else
        let n : Int := Decimal.ofDigits digits
        some (some (if negative then -n else n), rest)
    else some (none, s)
  | [] => some (none, [])

/-- An unsigned number at the beginning of a text. -/
def readMagnitude (negative : Bool) (s : List Char) : Option (JsonNumber × List Char) := do
  let (whole, rest) := s.span Char.isDigit
  if isWhole whole then
    let (fraction, rest) ← readFraction rest
    let (exponent, rest) ← readExponent rest
    let value : Decimal :=
      ⟨Decimal.ofDigits (whole ++ fraction), exponent.getD 0 - fraction.length⟩
    some (⟨negative, value, fraction.isEmpty && exponent.isNone⟩, rest)
  else none

/-- A number at the beginning of a text. -/
def readNumber : List Char → Option (JsonNumber × List Char)
  | '-' :: rest => readMagnitude true rest
  | rest => readMagnitude false rest

mutual

/-- A value at the beginning of a text, and what follows it. -/
def readValue : Nat → List Char → Option (Json × List Char)
  | 0, _ => none
  | fuel + 1, s =>
    match skipSpace s with
    | 'n' :: 'u' :: 'l' :: 'l' :: rest => some (.null, rest)
    | 't' :: 'r' :: 'u' :: 'e' :: rest => some (.bool true, rest)
    | 'f' :: 'a' :: 'l' :: 's' :: 'e' :: rest => some (.bool false, rest)
    | '"' :: rest => do
      let (cs, rest) ← readChars rest
      some (.string (String.ofList cs), rest)
    | '[' :: rest =>
      match skipSpace rest with
      | ']' :: rest => some (.array [], rest)
      | rest => do
        let (items, rest) ← readItems fuel rest
        some (.array items, rest)
    | '\x7b' :: rest =>
      match skipSpace rest with
      | '\x7d' :: rest => some (.object [], rest)
      | rest => do
        let (members, rest) ← readMembers fuel rest
        some (.object members, rest)
    | rest => do
      let (n, rest) ← readNumber rest
      some (.number n, rest)

/-- The items of an array from one of them on, up to the closing bracket. -/
def readItems : Nat → List Char → Option (List Json × List Char)
  | 0, _ => none
  | fuel + 1, s => do
    let (item, rest) ← readValue fuel s
    match skipSpace rest with
    | ',' :: rest => do
      let (items, rest) ← readItems fuel rest
      some (item :: items, rest)
    | ']' :: rest => some ([item], rest)
    | _ => none

/-- The members of an object from one of them on, up to the closing brace. -/
def readMembers : Nat → List Char → Option (List (String × Json) × List Char)
  | 0, _ => none
  | fuel + 1, s =>
    match skipSpace s with
    | '"' :: rest => do
      let (name, rest) ← readChars rest
      match skipSpace rest with
      | ':' :: rest => do
        let (value, rest) ← readValue fuel rest
        match skipSpace rest with
        | ',' :: rest => do
          let (members, rest) ← readMembers fuel rest
          some ((String.ofList name, value) :: members, rest)
        | '\x7d' :: rest => some ([(String.ofList name, value)], rest)
        | _ => none
      | _ => none
    | _ => none

end

/-- Reads a text as one JSON value. -/
def read? (text : String) : Option Json := do
  let (value, rest) ← readValue (text.toList.length + 1) text.toList
  if (skipSpace rest).isEmpty then some value else none

/-! ### Limits -/

mutual

/-- Whether a value is nested at most `depth` deep and all its numbers are finite doubles. -/
def fits (depth : Nat) : Json → Bool
  | .number n => n.magnitude.toFloat.isFinite
  | .array items =>
    match depth with
    | 0 => false
    | depth + 1 => fitsItems depth items
  | .object members =>
    match depth with
    | 0 => false
    | depth + 1 => fitsMembers depth members
  | _ => true

/-- The same for all items. -/
def fitsItems (depth : Nat) : List Json → Bool
  | [] => true
  | item :: items => fits depth item && fitsItems depth items

/-- The same for all members. -/
def fitsMembers (depth : Nat) : List (String × Json) → Bool
  | [] => true
  | (_, value) :: members => fits depth value && fitsMembers depth members

end

/-- The member of an object with a given name; of several the last one. -/
def member? (name : String) : Json → Option Json
  | .object members => ((members.filter fun entry => entry.1 == name).getLast?).map Prod.snd
  | _ => none

end AccessAudit.Json
