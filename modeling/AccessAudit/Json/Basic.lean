import AccessAudit.Decimal.Written

/-!
# JSON values

JSON values and the indented text that shows them: two blanks a level, one member or item a line.
-/

namespace AccessAudit

/-- A JSON number: its sign, its magnitude, and whether it is written without point and exponent. -/
structure JsonNumber where
  negative : Bool
  magnitude : Decimal
  integral : Bool
  deriving DecidableEq, Repr

/-- A JSON value; the members of an object keep the order in which they are written. -/
inductive Json where
  | null
  | bool (value : Bool)
  | number (value : JsonNumber)
  | string (text : String)
  | array (items : List Json)
  | object (members : List (String × Json))
  deriving Repr

namespace Json

/-- A whole number. -/
def ofNat (n : Nat) : Json :=
  .number ⟨false, ⟨n, 0⟩, true⟩

/-- A double that is not negative, by the fewest digits that read back, at least one of them after
the point. -/
def ofFloat (x : Float) : Json :=
  let d := Decimal.shortest x
  let spelled : Decimal :=
    if d.exponent < 0 then d else ⟨d.mantissa * Nat.pow 10 (d.exponent.toNat + 1), -1⟩
  .number ⟨false, spelled, false⟩

/-! ### Text -/

/-- The hexadecimal digits of a code below 256, in small letters. -/
def hexPair (n : Nat) : List Char :=
  [Nat.digitChar (n / 16), Nat.digitChar (n % 16)]

/-- One character between quotes. -/
def escapeChar (c : Char) : List Char :=
  if c = '"' then ['\\', '"']
  else if c = '\\' then ['\\', '\\']
  else if c = '\x08' then ['\\', 'b']
  else if c = '\x0c' then ['\\', 'f']
  else if c = '\n' then ['\\', 'n']
  else if c = '\r' then ['\\', 'r']
  else if c = '\t' then ['\\', 't']
  else if c.toNat < 32 then ['\\', 'u', '0', '0'] ++ hexPair c.toNat
  else [c]

/-- A string between quotes. -/
def quote (s : String) : List Char :=
  '"' :: s.toList.flatMap escapeChar ++ ['"']

/-- A number as it is written: a whole number by its digits, any other one with a point. -/
def numberText (n : JsonNumber) : List Char :=
  (if n.negative then ['-'] else [])
    ++ (if n.integral then Nat.toDigits 10 n.magnitude.mantissa else n.magnitude.positional)

/-- A new line, indented by two blanks a level. -/
def newline (level : Nat) : List Char :=
  '\n' :: List.replicate (2 * level) ' '

mutual

/-- The indented text of a value. -/
def render (level : Nat) : Json → List Char
  | .null => "null".toList
  | .bool true => "true".toList
  | .bool false => "false".toList
  | .number n => numberText n
  | .string s => quote s
  | .array [] => "[]".toList
  | .array (item :: items) =>
    '[' :: newline (level + 1) ++ render (level + 1) item ++ renderItems (level + 1) items
      ++ newline level ++ [']']
  | .object [] => ['\x7b', '\x7d']
  | .object ((name, value) :: members) =>
    '\x7b' :: newline (level + 1) ++ quote name ++ ": ".toList ++ render (level + 1) value
      ++ renderMembers (level + 1) members ++ newline level ++ ['\x7d']

/-- The items after the first one, each after a comma. -/
def renderItems (level : Nat) : List Json → List Char
  | [] => []
  | item :: items => ',' :: newline level ++ render level item ++ renderItems level items

/-- The members after the first one, each after a comma. -/
def renderMembers (level : Nat) : List (String × Json) → List Char
  | [] => []
  | (name, value) :: members =>
    ',' :: newline level ++ quote name ++ ": ".toList ++ render level value
      ++ renderMembers level members

end

/-- The indented text of a value. -/
def pretty (v : Json) : String :=
  String.ofList (render 0 v)

end Json

end AccessAudit
