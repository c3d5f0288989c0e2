import AccessAudit.Markup.Grammar.Engine
import AccessAudit.Markup.Parser

/-!
# Tokens

Words, numbers, strings and regular expressions of the scripting language that carries the markup,
and the rule by which the end of a line stands for a semicolon.
-/

namespace AccessAudit.Markup

namespace Grammar

/-! ### Words -/

/-- Characters that are never part of a word. -/
def isPunctuation (c : Char) : Bool :=
  ":;\x60\"'@#.,|^&<=>+-*/\\%?!~()[]\x7b\x7d".toList.contains c

/-- Characters of a word. -/
def isWordPart (c : Char) : Bool :=
  if c.isAlphanum then true
  else !(c.toNat < 32 || isPunctuation c || isGap c)

/-- Characters at the beginning of a word. -/
def isWordStart (c : Char) : Bool :=
  isWordPart c && !c.isDigit

/-- Characters of a name with hyphens. -/
def isPlainPart (c : Char) : Bool :=
  c.isAlphanum || c == '_' || c == '$'

/-- Whether one of the given words stands ahead, whole. -/
def startsWithWord (words : List String) (s : List Char) : Bool :=
  words.contains (String.ofList (s.takeWhile isWordPart))

namespace Expr

variable {σ : Type}

/-- A keyword after a gap. -/
def keyword (s : String) : Expr σ :=
  inOrder [.gap, .text s.toList, .unless (.char isWordPart)]

/-- Hexadecimal digits. -/
def isHex (c : Char) : Bool :=
  c.isDigit || ('a' ≤ c && c ≤ 'f') || ('A' ≤ c && c ≤ 'F')

/-- The number of a character after a backslash: four hexadecimal digits, or any number of them in
braces. -/
def codePoint : Expr σ :=
  choice
    [inOrder [.text ['u', '\x7b'], .char isHex, .span isHex, .text ['\x7d']],
     inOrder [.text ['u'], .char isHex, .char isHex, .char isHex, .char isHex]]

/-- The characters of a word, of which some may be given by their numbers. -/
def word : Expr σ :=
  let escaped := inOrder [.text ['\\'], codePoint]
  inOrder
    [choice [.char isWordStart, escaped], .span isWordPart,
     .star (inOrder [escaped, .span isWordPart])]

/-- A word that may be anything. -/
def anyName : Expr σ :=
  inOrder [.gap, .leaf .identifier word]

/-- A word that is none of the given ones. -/
def nameExcept (words : List String) : Expr σ :=
  inOrder [.gap, .test (fun s => !startsWithWord words s), .leaf .identifier word]

/-- A name in a tag, which may have hyphens. -/
def tagWord : Expr σ :=
  choice
    [inOrder
       [.char (fun c => isPlainPart c && !c.isDigit),
        .span isPlainPart,
        .text ['-'],
        .span (fun c => isPlainPart c || c == '-')],
     word]

/-! ### Numbers -/

/-- Digits of a class with single underscores between them. -/
def digits (test : Char → Bool) : Expr σ :=
  inOrder [.char test, .star (inOrder [opt (.text ['_']), .char test])]

/-- Decimal digits. -/
def decimals : Expr σ :=
  digits Char.isDigit

/-- A number in a radix other than ten: zero, a letter, and digits. -/
def radix (letters : String) (test : Char → Bool) : Expr σ :=
  inOrder [.text ['0'], oneOf letters, digits test]

/-- An exponent. -/
def exponent : Expr σ :=
  inOrder [oneOf "eE", opt (oneOf "+-"), decimals]

/-- A number literal. -/
def number : Expr σ :=
  choice
    [inOrder [radix "xX" isHex, opt (.text ['n'])],
     inOrder [radix "bB" (fun c => c == '0' || c == '1'), opt (.text ['n'])],
     inOrder [radix "oO" (fun c => '0' ≤ c && c ≤ '7'), opt (.text ['n'])],
     inOrder [decimals, .text ['n']], inOrder [decimals, .text ['.'], opt decimals, opt exponent],
     inOrder [.text ['.'], decimals, opt exponent], inOrder [decimals, opt exponent]]

/-! ### Strings and regular expressions -/

/-- What may follow a backslash. -/
def escape : Expr σ :=
  inOrder
    [.text ['\\'],
     choice
       [inOrder [.text ['x'], .char isHex, .char isHex], codePoint, .text ['\r', '\n'],
        .char fun c => c != 'x' && c != 'u']]

/-- A string between quotes, on one line. -/
def quotedBy (quote : Char) : Expr σ :=
  inOrder
    [.text [quote],
     .star (choice [(.char fun c => c != quote && c != '\\' && c != '\n' && c != '\r'), escape]),
     .text [quote]]

/-- A string literal. -/
def string : Expr σ :=
  inOrder [.gap, .leaf .string (choice [quotedBy '"', quotedBy '\''])]

/-- A regular expression literal. -/
def regex : Expr σ :=
  let escaped : Expr σ := inOrder [.text ['\\'], .char (· != '\n')]
  inOrder
    [.text ['/'],
     repeated
       (choice
         [inOrder
            [.text ['['],
             .star (choice [escaped, .char fun c => c != ']' && c != '\n' && c != '\\']),
             .text [']']],
          escaped, .char fun c => c != '/' && c != '\\' && c != '[' && c != '\n']),
     .text ['/'], .span (fun c => 'a' ≤ c && c ≤ 'z')]

/-- A comment of a page: it begins with one of the given texts and goes to the end of the line. -/
def pageComment (openings : List String) : Expr σ :=
  .leaf .other (inOrder
    [choice (openings.map fun s => .text s.toList), .span fun c => !isLineBreak c])

/-- A character reference in text or in a quoted attribute value. -/
def reference : Expr σ :=
  inOrder
    [.text ['&'],
     choice
       [inOrder [.text ['#'], oneOf "xX", upTo 6 (.char isHex)],
        inOrder [.text ['#'], upTo 5 (.char Char.isDigit)], upTo 30 (.char Char.isAlpha)],
     .text [';']]

/-- A quoted attribute value: anything but the quote, with complete character references. -/
def attributeString (quote : Char) : Expr σ :=
  inOrder
    [.text [quote], .star (choice [(.char fun c => c != quote && c != '&'), reference]),
     .text [quote]]

end Expr

/-! ### Ends of lines as semicolons -/

/-- Whether a text goes on with a word, and not with a longer one. -/
def goesOnWith (word : String) (s : List Char) : Bool :=
  match Cursor.skipText? word.toList (Cursor.start s) with
  | some c => !(c.rest.head?.any Char.isAlpha)
  | none => false

/-- Whether a token on a new line goes on with an expression that could end before it. -/
def continuesLine (dialect : Dialect) (afterValue : Bool) (s : List Char) : Bool :=
  match s with
  | '+' :: c :: _ => c != '+'
  | '-' :: c :: _ => c != '-'
  | '!' :: c :: _ => c == '='
  | '.' :: c :: _ => dialect == .tsx || !c.isDigit
  | c :: _ =>
    if c = '(' ∨ c = '[' then dialect == .jsx || afterValue
    else if c = 'i' then goesOnWith "in" s || goesOnWith "instanceof" s
    else "\x60,:;*%><=?^|&/.+-!".toList.contains c
  | [] => false

/-- Whether a statement may end at a place without a semicolon: before a closing brace, at the end
of the source, and at the end of a line unless the next line goes on with it.  After a complete
value a parenthesis or bracket on the next line goes on with it. -/
def endsStatement (dialect : Dialect) (afterValue : Bool) (s : List Char) : Bool :=
  let gap := (Cursor.start s).gap
  match gap.cursor.rest with
  | [] => true
  | '\x7d' :: _ => true
  | rest => gap.newline && !continuesLine dialect afterValue rest

/-- Whether a line ends in the gap ahead. -/
def breaksLine (s : List Char) : Bool :=
  (Cursor.start s).gap.newline

end Grammar

end AccessAudit.Markup
