import AccessAudit.Toml.Basic
import AccessAudit.Toml.Scalar

/-!
# Reading TOML

The grammar of TOML 1.0.  A document is read line by line: headers, keys with values, comments.
-/

namespace AccessAudit.Toml

/-! ### Between tokens -/

/-- Blanks inside a line. -/
def isSpace (c : Char) : Bool :=
  c == ' ' || c == '\t'

/-- A text without the blanks at its beginning. -/
def skipSpace (s : List Char) : List Char :=
  s.dropWhile isSpace

/-- Characters that stand for themselves in comments and strings. -/
def isPlain (c : Char) : Bool :=
  c == '\t' || (32 ≤ c.toNat && c.toNat != 127)

/-- A text without the comment at its beginning, if there is one. -/
def skipComment : List Char → List Char
  | '#' :: rest => rest.dropWhile isPlain
  | rest => rest

/-- What follows the end of a line; the end of the text is one, too. -/
def newline? : List Char → Option (List Char)
  | [] => some []
  | '\n' :: rest => some rest
  | '\r' :: '\n' :: rest => some rest
  | _ => none

/-- What follows a line of which nothing but blanks and a comment is left. -/
def lineEnd? (s : List Char) : Option (List Char) :=
  newline? (skipComment (skipSpace s))

/-- A text without the blanks, ends of lines and comments at its beginning. -/
def skipLines : Bool → List Char → List Char
  | _, [] => []
  | _, '\n' :: rest => skipLines false rest
  | _, '\r' :: '\n' :: rest => skipLines false rest
  | false, c :: rest =>
    if isSpace c then skipLines false rest
    else if c = '#' then skipLines true rest
    else c :: rest
  | true, c :: rest => if isPlain c then skipLines true rest else c :: rest

/-! ### Strings -/

/-- The character of a one-letter escape. -/
def simpleEscape? (c : Char) : Option Char :=
  if c = '"' then some '"'
  else if c = '\\' then some '\\'
  else if c = 'b' then some '\x08'
  else if c = 'f' then some '\x0c'
  else if c = 'n' then some '\n'
  else if c = 'r' then some '\r'
  else if c = 't' then some '\t'
  else none

/-- The character whose code some hexadecimal digits are. -/
def codeChar? (digits : List Char) : Option Char := do
  let n ← Text.natural? 16 digits
  if n.isValidChar then some (Char.ofNat n) else none

/-- Adds a character in front of the characters of a string. -/
def consChar (c : Char) : List Char × List Char → List Char × List Char
  | (cs, rest) => (c :: cs, rest)

/-- The characters of a string after its opening quote, and the text after its closing quote. -/
def readBasic : List Char → Option (List Char × List Char)
  | [] => none
  | '"' :: rest => some ([], rest)
  | '\\' :: 'u' :: a :: b :: c :: d :: rest => do
    let x ← codeChar? [a, b, c, d]
    (readBasic rest).map (consChar x)
  | '\\' :: 'U' :: a :: b :: c :: d :: e :: f :: g :: h :: rest => do
    let x ← codeChar? [a, b, c, d, e, f, g, h]
    (readBasic rest).map (consChar x)
  | '\\' :: c :: rest => do
    let x ← simpleEscape? c
    (readBasic rest).map (consChar x)
  | c :: rest => if isPlain c && c != '\\' then (readBasic rest).map (consChar c) else none

/-- Quotes that stand before the three closing ones: at most two, and they belong to the string. -/
def closeQuotes (quote : Char) : List Char → List Char × List Char
  | a :: b :: rest =>
    if a = quote then (if b = quote then ([a, b], rest) else ([a], b :: rest))
    else ([], a :: b :: rest)
  | [a] => if a = quote then ([a], []) else ([], [a])
  | [] => ([], [])

/-- Where the reading of a string of several lines stands. -/
inductive LongMode where
  | text
  /-- After a backslash that the end of the line has to follow. -/
  | slash
  /-- After such an end of a line, where blanks do not count. -/
  | fold
  deriving DecidableEq, Repr

/-- The characters of a string of several lines after its opening quotes, and the text after its
closing quotes. -/
def readLong : LongMode → List Char → Option (List Char × List Char)
  | _, [] => none
  | .slash, '\n' :: rest => readLong .fold rest
  | .slash, '\r' :: '\n' :: rest => readLong .fold rest
  | .slash, c :: rest => if isSpace c then readLong .slash rest else none
  | .fold, '\n' :: rest => readLong .fold rest
  | .fold, '\r' :: '\n' :: rest => readLong .fold rest
  | .fold, ' ' :: rest => readLong .fold rest
  | .fold, '\t' :: rest => readLong .fold rest
  | _, '"' :: '"' :: '"' :: rest => some (closeQuotes '"' rest)
  | _, '\\' :: 'u' :: a :: b :: c :: d :: rest => do
    let x ← codeChar? [a, b, c, d]
    (readLong .text rest).map (consChar x)
  | _, '\\' :: 'U' :: a :: b :: c :: d :: e :: f :: g :: h :: rest => do
    let x ← codeChar? [a, b, c, d, e, f, g, h]
    (readLong .text rest).map (consChar x)
  | _, '\\' :: '\n' :: rest => readLong .fold rest
  | _, '\\' :: '\r' :: '\n' :: rest => readLong .fold rest
  | _, '\\' :: c :: rest =>
    if isSpace c then readLong .slash rest
    else do
      let x ← simpleEscape? c
      (readLong .text rest).map (consChar x)
  | _, '\r' :: '\n' :: rest => (readLong .text rest).map (consChar '\n')
  | _, c :: rest =>
    if c = '\n' ∨ (isPlain c ∧ c ≠ '\\') then (readLong .text rest).map (consChar c) else none

/-- The characters of a literal string after its opening quote, and the text after its closing
quote. -/
def readLiteral : List Char → Option (List Char × List Char)
  | [] => none
  | '\'' :: rest => some ([], rest)
  | c :: rest => if isPlain c then (readLiteral rest).map (consChar c) else none

/-- The same for a literal string of several lines. -/
def readLongLiteral : List Char → Option (List Char × List Char)
  | [] => none
  | '\'' :: '\'' :: '\'' :: rest => some (closeQuotes '\'' rest)
  | '\r' :: '\n' :: rest => (readLongLiteral rest).map (consChar '\n')
  | c :: rest =>
    if c = '\n' ∨ isPlain c then (readLongLiteral rest).map (consChar c) else none

/-- A text without one end of a line at its beginning. -/
def dropNewline : List Char → List Char
  | '\n' :: rest => rest
  | '\r' :: '\n' :: rest => rest
  | rest => rest

/-- A string of any kind at the beginning of a text, and what follows it. -/
def readString? : List Char → Option (List Char × List Char)
  | '"' :: '"' :: '"' :: rest => readLong .text (dropNewline rest)
  | '\'' :: '\'' :: '\'' :: rest => readLongLiteral (dropNewline rest)
  | '"' :: rest => readBasic rest
  | '\'' :: rest => readLiteral rest
  | _ => none

/-! ### Keys -/

/-- Characters of a key without quotes. -/
def isBare (c : Char) : Bool :=
  c.isAlphanum || c == '_' || c == '-'

/-- One part of a key, and what follows it. -/
def readPart? : List Char → Option (String × List Char)
  | '"' :: rest => (readBasic rest).map fun (cs, rest) => (String.ofList cs, rest)
  | '\'' :: rest => (readLiteral rest).map fun (cs, rest) => (String.ofList cs, rest)
  | s =>
    let (word, rest) := s.span isBare
    if word.isEmpty then none else some (String.ofList word, rest)

/-- The parts of a key with points between them, and what follows the key and its blanks. -/
def readParts : Nat → List Char → Option (List String × List Char)
  | 0, _ => none
  | limit + 1, s => do
    let (part, rest) ← readPart? (skipSpace s)
    match skipSpace rest with
    | '.' :: rest => do
      let (parts, rest) ← readParts limit rest
      some (part :: parts, rest)
    | rest => some ([part], rest)

/-- The largest number of parts of a key. -/
def partLimit : Nat :=
  79

/-- A key, and what follows it and its blanks. -/
def readKey? (s : List Char) : Option (List String × List Char) :=
  readParts partLimit s

/-! ### Values -/

/-- Characters of a number, a date or a word. -/
def isWordPart (c : Char) : Bool :=
  c.isAlphanum || c == '_' || c == '-' || c == '+' || c == '.' || c == ':'

/-- A word as a value, and what follows it.  After a date and one blank a time may follow. -/
def readWord? (s : List Char) : Option (Data × List Char) := do
  let (word, rest) := s.span isWordPart
  let value ← wordValue? word
  match rest with
  | ' ' :: rest' =>
    let (time, rest'') := rest'.span isWordPart
    if afterDate? word == some [] && (time.take 3).getLast? == some ':' then
      if isTimeWithOffset time then some (.date, rest'') else none
    else some (value, rest)
  | rest => some (value, rest)

/-- How deep lists and tables may stand in one another. -/
def depthLimit : Nat :=
  80

mutual

/-- A value at the beginning of a text, and what follows it. -/
def readValue : Nat → Nat → List Char → Option (Data × List Char)
  | 0, _, _ => none
  | fuel + 1, depth, s =>
    match s with
    | '[' :: rest =>
      match depth with
      | 0 => none
      | depth + 1 => do
        let (items, rest) ← readItems fuel depth (skipLines false rest)
        some (.list items, rest)
    | '\x7b' :: rest =>
      match depth with
      | 0 => none
      | depth + 1 =>
        match skipSpace rest with
        | '\x7d' :: rest => some (.table [], rest)
        | rest => do
          let (pairs, rest) ← readPairs fuel depth rest
          let table ← inlineTable? pairs
          some (table, rest)
    | c :: _ =>
      if c = '"' ∨ c = '\'' then
        (readString? s).map fun (cs, rest) => (.string (String.ofList cs), rest)
      else readWord? s
    | [] => none

/-- The items of a list up to its closing bracket.  A comma may follow the last one. -/
def readItems : Nat → Nat → List Char → Option (List Data × List Char)
  | 0, _, _ => none
  | fuel + 1, depth, s =>
    match s with
    | ']' :: rest => some ([], rest)
    | s => do
      let (item, rest) ← readValue fuel depth s
      match skipLines false rest with
      | ',' :: rest => do
        let (items, rest) ← readItems fuel depth (skipLines false rest)
        some (item :: items, rest)
      | ']' :: rest => some ([item], rest)
      | _ => none

/-- The keys and values of a table in braces from one of them on, up to the closing brace. -/
def readPairs : Nat → Nat → List Char → Option (List (List String × Data) × List Char)
  | 0, _, _ => none
  | fuel + 1, depth, s => do
    let (key, rest) ← readKey? s
    let rest ← Text.rest? ['='] rest
    let (value, rest) ← readValue fuel depth (skipSpace rest)
    match skipSpace rest with
    | ',' :: rest => do
      let (pairs, rest) ← readPairs fuel depth rest
      some ((key, value) :: pairs, rest)
    | '\x7d' :: rest => some ([(key, value)], rest)
    | _ => none

end

/-! ### Lines -/

/-- The document after one line, and the text after the line. -/
def readLine? (d : Document) (s : List Char) : Option (Document × List Char) :=
  match skipSpace s with
  | '[' :: '[' :: rest => do
    let (key, rest) ← readKey? rest
    let rest ← Text.rest? [']', ']'] rest
    let rest ← lineEnd? rest
    let d ← d.item? key
    some (d, rest)
  | '[' :: rest => do
    let (key, rest) ← readKey? rest
    let rest ← Text.rest? [']'] rest
    let rest ← lineEnd? rest
    let d ← d.header? key
    some (d, rest)
  | rest =>
    match lineEnd? rest with
    | some rest => some (d, rest)
    | none => do
      let (key, rest) ← readKey? rest
      let rest ← Text.rest? ['='] rest
      let (value, rest) ← readValue (rest.length + 1) depthLimit (skipSpace rest)
      let rest ← lineEnd? rest
      let d ← d.set? key value
      some (d, rest)

/-- The document after all lines of a text. -/
def readLines : Nat → Document → List Char → Option Document
  | _, d, [] => some d
  | 0, _, _ :: _ => none
  | fuel + 1, d, s => do
    let (d, rest) ← readLine? d s
    readLines fuel d rest

/-- Reads a text as a TOML document; a byte order mark may stand in front. -/
def read? (text : String) : Option Data :=
  let s := match text.toList with
    | '\ufeff' :: rest => rest
    | s => s
  (readLines s.length .empty s).map Document.toData

end AccessAudit.Toml
