import AccessAudit.Markup.Element

/-!
# Markup as it is written

Trees of elements with attributes and text, the text that they are written as, and the list of the
elements that a reader should find in it.  The list is defined on the trees alone: an element is
before those inside it, its line is the one on which its `<` stands, and of attributes with one name
the last one counts.
-/

namespace AccessAudit.Markup

/-! ### Names and texts -/

namespace Written

/-- A word: an ASCII letter, and then ASCII letters and digits. -/
structure Word where
  first : Char
  others : List Char
  isAlpha_first : first.isAlpha = true
  isAlphanum_others : ∀ c ∈ others, c.isAlphanum = true

/-- The characters of a word. -/
def Word.chars (w : Word) : List Char :=
  w.first :: w.others

/-- A word in which hyphens may stand after the first letter. -/
structure HyphenedWord where
  first : Char
  others : List Char
  isAlpha_first : first.isAlpha = true
  isPart_others : ∀ c ∈ others, c.isAlphanum = true ∨ c = '-'

/-- The characters of a word with hyphens. -/
def HyphenedWord.chars (w : HyphenedWord) : List Char :=
  w.first :: w.others

/-- A word as a word with hyphens. -/
def Word.toHyphenedWord (w : Word) : HyphenedWord where
  first := w.first
  others := w.others
  isAlpha_first := w.isAlpha_first
  isPart_others c hc := .inl (w.isAlphanum_others c hc)

/-- The reserved words of the scripting language, in both dialects. -/
def keywords : List String :=
  ["await", "break", "case", "catch", "class", "const", "continue", "debugger", "default",
   "delete", "do", "else", "enum", "export", "extends", "false", "finally", "for", "function",
   "if", "implements", "import", "in", "instanceof", "interface", "let", "new", "null", "package",
   "private", "protected", "public", "return", "static", "super", "switch", "this", "throw",
   "true", "try", "typeof", "var", "void", "while", "with", "yield"]

/-- The name of a tag. -/
structure Name extends Word where
  not_keyword : String.ofList toWord.chars ∉ keywords

/-- The name of an attribute. -/
structure AttributeName extends HyphenedWord where
  not_keyword : String.ofList toHyphenedWord.chars ∉ keywords

/-- The name of a variable; two further words have a meaning of their own where it may stand. -/
structure Variable extends Name where
  not_special : String.ofList toWord.chars ∉ ["async", "undefined"]

/-- What stands in quotes: ASCII letters, digits, blanks and some signs. -/
structure Quoted where
  chars : List Char
  isPart : ∀ c ∈ chars, c.isAlphanum = true ∨ c ∈ [' ', '-', '_', '.', '/', ':', '#']

/-- Text between tags: ASCII letters, digits, blanks and line feeds. -/
structure PlainText where
  chars : List Char
  isPart : ∀ c ∈ chars, c.isAlphanum = true ∨ c = ' ' ∨ c = '\n'

/-! ### Attributes -/

/-- A text in quotes. -/
def inQuotes (w : List Char) : List Char :=
  '"' :: (w ++ ['"'])

/-- A text in braces. -/
def inBraces (w : List Char) : List Char :=
  '\x7b' :: (w ++ ['\x7d'])

/-- The word for a truth value. -/
def flagWord (value : Bool) : List Char :=
  if value then "true".toList else "false".toList

/-- An attribute of a tag. -/
inductive Attribute where
  | bare (name : AttributeName)
  | quoted (name : AttributeName) (value : Quoted)
  | braced (name : AttributeName) (value : Quoted)
  | flag (name : AttributeName) (value : Bool)
  | ofVariable (name : AttributeName) (value : Variable)
  | spread (value : Variable)

namespace Attribute

/-- The text that an attribute is written as. -/
def render : Attribute → List Char
  | .bare name => name.chars
  | .quoted name value => name.chars ++ '=' :: inQuotes value.chars
  | .braced name value => name.chars ++ '=' :: inBraces (inQuotes value.chars)
  | .flag name value => name.chars ++ '=' :: inBraces (flagWord value)
  | .ofVariable name value => name.chars ++ '=' :: inBraces value.chars
  | .spread value => inBraces ('.' :: '.' :: '.' :: value.chars)

/-- The name under which an attribute is found. -/
def key : Attribute → String
  | .bare name | .quoted name _ | .braced name _ | .flag name _ | .ofVariable name _ =>
    String.ofList name.chars
  | .spread _ => spreadName

/-- The value with which an attribute is found. -/
def value : Attribute → Value
  | .bare _ => .boolean true
  | .quoted _ value | .braced _ value => .string (String.ofList value.chars)
  | .flag _ value => .boolean value
  | .ofVariable _ _ => .expression
  | .spread _ => .boolean true

/-- Attributes by their names, where the last one of a name counts. -/
def lastOfEach : List Attribute → Attributes
  | [] => []
  | a :: rest =>
    if rest.any fun b => b.key == a.key then lastOfEach rest
    else (a.key, a.value) :: lastOfEach rest

end Attribute

end Written

/-! ### Trees -/

mutual

/-- An element as it is written. -/
inductive Written where
  | void (tag : Written.Name) (attributes : List Written.Attribute)
  | full (tag : Written.Name) (attributes : List Written.Attribute) (content : Written.Content)

/-- What stands between two tags. -/
inductive Written.Content where
  | nil
  | text (t : Written.PlainText) (rest : Written.Content)
  | child (e : Written) (rest : Written.Content)

end

namespace Written

/-- Attributes, each after a blank. -/
def Attribute.renderAll (attributes : List Attribute) : List Char :=
  attributes.flatMap fun a => ' ' :: a.render

/-- A tag with its attributes, up to its end. -/
def tagHead (tag : Name) (attributes : List Attribute) : List Char :=
  '<' :: (tag.chars ++ Attribute.renderAll attributes)

/-- A closing tag. -/
def closingTag (tag : Name) : List Char :=
  '<' :: '/' :: (tag.chars ++ ['>'])

mutual

/-- The text that an element is written as. -/
def render : Written → List Char
  | .void tag attributes => tagHead tag attributes ++ [' ', '/', '>']
  | .full tag attributes content =>
    tagHead tag attributes ++ '>' :: (content.render ++ closingTag tag)

/-- The text that content is written as. -/
def Content.render : Content → List Char
  | .nil => []
  | .text t rest => t.chars ++ rest.render
  | .child e rest => e.render ++ rest.render

end

/-- Whether content has an element or a text that is not blank. -/
def Content.isFilled : Content → Bool
  | .nil => false
  | .text t rest => t.chars.any (fun c => c != ' ' && c != '\n') || rest.isFilled
  | .child _ _ => true

/-- The name of a tag in small letters. -/
def Name.lower (n : Name) : String :=
  String.ofList (n.chars.map Char.toLower)

mutual

/-- The elements of a written element, with the lines that they have after some text. -/
def listing (before : List Char) : Written → List Element
  | .void tag attributes =>
    [⟨tag.lower, before.count '\n' + 1, Attribute.lastOfEach attributes, false, true⟩]
  | .full tag attributes content =>
    ⟨tag.lower, before.count '\n' + 1, Attribute.lastOfEach attributes, content.isFilled, false⟩
      :: content.listing (before ++ tagHead tag attributes ++ ['>'])

/-- The elements of content, with the lines that they have after some text. -/
def Content.listing (before : List Char) : Content → List Element
  | .nil => []
  | .text t rest => rest.listing (before ++ t.chars)
  | .child e rest => e.listing before ++ rest.listing (before ++ e.render)

end

/-- What stands before an element in a source. -/
def declarationHead : List Char :=
  "const x = ".toList

/-- The source that declares a constant whose value is a written element. -/
def source (t : Written) : String :=
  String.ofList (declarationHead ++ t.render ++ [';', '\n'])

end Written

end AccessAudit.Markup
