import AccessAudit.Markup.Grammar.Types

/-!
# Expressions

The grammar of expressions.  Operators are read from left to right without precedence, which does
not matter for what is taken from them.  An expression that is one smallest expression and nothing
more keeps its kind; any other one is a node of kind `other`.
-/

namespace AccessAudit.Markup.Grammar

open AccessAudit.Markup.Grammar.Expr

/-- Words that do not stand for a variable where an expression begins. -/
def expressionWords : List String :=
  ["function", "class", "new", "typeof", "void", "delete", "await", "yield", "this", "super",
   "null", "true", "false", "undefined", "import"]

/-- A part that only the dialect with types has. -/
def typed (d : Dialect) (e : Expr Symbol) : Expr Symbol :=
  if d = .tsx then e else never

/-- An optional part that only the dialect with types has. -/
def typedOpt (d : Dialect) (e : Expr Symbol) : Expr Symbol :=
  if d = .tsx then opt e else .empty

/-- A default value. -/
def initializer : Expr Symbol :=
  inOrder [token "=", .rule .assignment]

/-- The beginning of a property's name. -/
def aheadName : Expr Symbol :=
  .look (inOrder [.gap, .char fun c => isWordPart c || "\"'[#*".toList.contains c])

/-! ### Functions -/

/-- What is between a function's name and its body. -/
def signatureRule (d : Dialect) : Expr Symbol :=
  inOrder [typedOpt d (.rule .typeParameters), .rule .parameters, typedOpt d resultType]

/-- A name or a pattern that takes a value apart. -/
def patternRule : Expr Symbol :=
  let rest := inOrder [token "...", .rule .pattern]
  let entry :=
    choice
      [rest, inOrder [.rule .propertyName, token ":", .rule .pattern, opt initializer],
       inOrder [anyName, opt initializer]]
  let item := choice [rest, inOrder [.rule .pattern, opt initializer]]
  choice
    [nameExcept expressionWords, phrase .other [.text ['\x7b'], commaSep (opt entry), token "\x7d"],
     phrase .other [.text ['['], commaSep (opt item), token "]"]]

/-- The parameters of a function. -/
def parametersRule (d : Dialect) : Expr Symbol :=
  let modifiers :=
    .star
      (choice
        (["public", "private", "protected", "override", "readonly"].map fun m =>
          inOrder
            [keyword m,
             .look (inOrder [.gap, .char fun c => isWordStart c || c == '\x7b' || c == '['])]))
  let plain :=
    choice [inOrder [token "...", .rule .pattern], inOrder [.rule .pattern, opt initializer]]
  let annotated :=
    inOrder
      [.rule .decorators, modifiers,
       choice [inOrder [token "...", .rule .pattern], .rule .pattern, keyword "this"],
       opt (token "?"), opt typeAnnotation, opt initializer]
  let parameter := if d = .tsx then annotated else plain
  inOrder [token "(", opt (inOrder [commaSep parameter, opt (token ",")]), token ")"]

/-- An arrow function. -/
def arrowRule : Expr Symbol :=
  let head := choice [nameExcept expressionWords, .rule .signature]
  phrase .arrowFunction
    [choice [inOrder [keyword "async", sameLine, head, token "=>"], inOrder [head, token "=>"]],
     choice [.rule .block, .rule .assignment]]

/-- A function used as a value; a generator is of no interest. -/
def functionExpression : Expr Symbol :=
  let async := opt (inOrder [keyword "async", sameLine])
  choice
    [phrase .functionExpression
       [async, keyword "function", opt (.role .name anyName), .rule .signature, .rule .block],
     phrase .other
       [async, keyword "function", token "*", opt anyName, .rule .signature, .rule .block]]

/-! ### Classes and objects -/

/-- The name of a property. -/
def propertyNameRule : Expr Symbol :=
  inOrder
    [.gap,
     choice
       [.leaf .identifier word, .leaf .identifier (inOrder [.text ['#'], word]), string,
        .leaf .number number, inOrder [token "[", .rule .assignment, token "]"]]]

/-- A method with its modifiers. -/
def methodRule (d : Dialect) : Expr Symbol :=
  phrase .other
    [opt (inOrder [keyword "async", aheadName]),
     opt
       (choice [inOrder [keyword "get", aheadName], inOrder [keyword "set", aheadName], token "*"]),
     .rule .propertyName, typedOpt d (token "?"), .rule .signature,
     choice [.rule .block, typed d (semicolon d false)]]

/-- An object literal. -/
def objectRule : Expr Symbol :=
  let member :=
    choice
      [.rule .spread, inOrder [.rule .propertyName, token ":", .rule .assignment], .rule .method,
       anyName]
  phrase .other [.text ['\x7b'], commaSep (opt member), token "\x7d"]

/-- Decorators. -/
def decoratorsRule : Expr Symbol :=
  .star (inOrder
    [token "@", choice [.rule .parenthesized, inOrder [dottedName, opt (.rule .arguments)]]])

/-- A member of a class. -/
def classMember (d : Dialect) : Expr Symbol :=
  let words := if d = .tsx then
      ["static", "public", "private", "protected", "override", "readonly", "abstract", "declare",
       "accessor"]
    else ["static"]
  let modifiers := .star (choice (words.map fun m => inOrder [keyword m, aheadName]))
  let mark := typedOpt d (choice [token "?", token "!"])
  choice
    [token ";", phrase .other [keyword "static", .rule .block],
     phrase .other [.rule .decorators, modifiers, .rule .method],
     phrase .other
       [.rule .decorators, modifiers,
        typed d (inOrder [token "[", anyName, typeAnnotation, token "]", typeAnnotation]),
        semicolon d false],
     phrase .other
       [.rule .decorators, modifiers, .rule .propertyName, mark, typedOpt d typeAnnotation,
        opt initializer, semicolon d true]]

/-- What follows the name of a class. -/
def classTailRule (d : Dialect) : Expr Symbol :=
  let parent := inOrder [.rule .postfixed, typedOpt d (.rule .typeArguments)]
  inOrder
    [typedOpt d (.rule .typeParameters),
     opt (inOrder [keyword "extends", if d = .tsx then commaSep parent else parent]),
     typedOpt d (inOrder [keyword "implements", commaSep (.rule .type)]), token "\x7b",
     .star (classMember d), token "\x7d"]

/-- A class used as a value. -/
def classExpression : Expr Symbol :=
  phrase .other
    [.rule .decorators, keyword "class", opt (nameExcept ["extends", "implements"]),
     .rule .classTail]

/-! ### Smallest expressions -/

/-- A spread. -/
def spreadRule : Expr Symbol :=
  phrase .spread [.text ['.', '.', '.'], .rule .assignment]

/-- The arguments of a call. -/
def argumentsRule : Expr Symbol :=
  inOrder [token "(", commaSep (opt (choice [.rule .spread, .rule .assignment])), token ")"]

/-- A template string. -/
def templateRule : Expr Symbol :=
  let chunk :=
    choice
      [.char fun c => c != '\x60' && c != '\\' && c != '$', escape,
       inOrder [.text ['$', '\x7b'], .rule .expressions, token "\x7d"],
       inOrder [.text ['$'], .unless (.text ['\x7b'])]]
  .node .other (inOrder [.text ['\x60'], .star chunk, .text ['\x60']])

/-- An expression in parentheses. -/
def parenthesizedRule (d : Dialect) : Expr Symbol :=
  phrase .parenthesized [.text ['('], .rule .expressions, typedOpt d typeAnnotation, token ")"]

/-- A word of the language as an expression. -/
def literalWord (kind : Kind) (s : String) : Expr Symbol :=
  inOrder [.gap, .leaf kind (inOrder [.text s.toList, .unless (.char isWordPart)])]

/-- A construction of an object. -/
def construction (d : Dialect) : Expr Symbol :=
  let access :=
    choice
      [inOrder [token ".", choice [anyName, inOrder [token "#", anyName]]],
       inOrder [token "[", .rule .expressions, token "]"], inOrder [.gap, .rule .template]]
  phrase .other
    [keyword "new",
     choice
       [inOrder [token ".", keyword "target"],
        inOrder
          [.rule .primary, .star access, typedOpt d (.rule .typeArguments),
           opt (.rule .arguments)]]]

/-- The smallest expressions. -/
def primaryRule (d : Dialect) : Expr Symbol :=
  inOrder
    [.gap,
     choice
       [.rule .parenthesized, .rule .markup, string, .rule .template, .leaf .number number,
        .node .other regex,
        .node .other (inOrder
          [.text ['['], commaSep (opt (choice [.rule .spread, .rule .assignment])), token "]"]),
        .rule .object, inOrder [.rule .pattern, .look (token "=")], literalWord .true "true",
        literalWord .false "false", literalWord .other "null", literalWord .other "undefined",
        literalWord .other "this", literalWord .other "super", functionExpression, classExpression,
        construction d,
        .node .other (inOrder
          [keyword "import", choice [.rule .arguments, inOrder [token ".", anyName]]]),
        nameExcept expressionWords, .leaf .identifier (inOrder [.text ['#'], word])]]

/-! ### Operators -/

/-- Whether an expression with type arguments may end at a place: at the end of a line and before
what cannot be an operand. -/
def endsInstance (s : List Char) : Bool :=
  match (Cursor.start s).gap.cursor.rest with
  | [] => true
  | c :: _ => breaksLine s || ";,)]\x7d:.".toList.contains c

/-- What may follow a smallest expression. -/
def postfixOperator (d : Dialect) : Expr Symbol :=
  let member := choice [anyName, inOrder [token "#", anyName]]
  let index := inOrder [token "[", .rule .expressions, token "]"]
  let call := choice [.rule .arguments, inOrder [.gap, .rule .template]]
  let instance_ := inOrder [.rule .typeArguments, choice [call, .test endsInstance]]
  choice
    [inOrder
       [token "?.", .unless (.char Char.isDigit),
        choice [call, index, typed d (inOrder [.rule .typeArguments, call]), member]],
     inOrder [token ".", .unless (.text ['.']), member], index, call,
     typed d (inOrder [sameLine, token "!", .unless (.text ['='])]), typed d instance_,
     inOrder [sameLine, choice [token "++", token "--"]]]

/-- An operand with what may follow it. -/
def postfixedRule (d : Dialect) : Expr Symbol :=
  inOrder [.gap, .extend .other (.rule .primary) (repeated (postfixOperator d))]

/-- An operand. -/
def operandRule (d : Dialect) : Expr Symbol :=
  let mark :=
    choice
      [inOrder [token "!", .unless (.text ['='])], token "~", token "++", token "--", token "+",
       token "-", keyword "typeof", keyword "void", keyword "delete", keyword "await"]
  choice
    [inOrder [.gap, .extend .other (.rule .arrow) (repeated (postfixOperator d))],
     phrase .other [mark, .rule .operand],
     phrase .other
       [keyword "yield",
        choice
          [inOrder [token "*", .rule .assignment], .test (endsStatement d false),
           opt (.rule .assignment)]],
     .rule .postfixed]

/-- Operators that assign. -/
def assignmentOperator : Expr Symbol :=
  choice
    (inOrder [token "=", .unless (oneOf "=>")] ::
      ["+=", "-=", "**=", "*=", "/=", "%=", "<<=", ">>>=", ">>=", "&&=", "||=", "??=", "&=", "^=",
       "|="].map token)

/-- Operators between two operands. -/
def binaryOperator : Expr Symbol :=
  choice
    [choice
       (["===", "!==", "==", "!=", "**", "<<", ">>>", ">>", "<=", ">=", "&&", "||", "??"].map
         token),
     inOrder [token "+", .unless (.text ['+'])], inOrder [token "-", .unless (.text ['-'])],
     choice (["*", "/", "%", "<", ">", "&", "|", "^"].map token),
     keyword "instanceof", keyword "in"]

/-- An expression without commas.  After a question mark, what looks like an arrow function with the
type of its result may be an expression in parentheses before the colon. -/
def assignmentRule (d : Dialect) : Expr Symbol :=
  let tail :=
    choice
      [inOrder [assignmentOperator, .rule .assignment], inOrder [binaryOperator, .rule .operand],
       inOrder
         [token "?", .unless (inOrder [.text ['.'], .unless (.char Char.isDigit)]),
          choice
            [inOrder [.rule .assignment, token ":"],
             inOrder [.look (.rule .arrow), .rule .parenthesized, token ":"]],
          .rule .assignment],
       typed d (inOrder [sameLine, keyword "as", choice [keyword "const", .rule .type]]),
       typed d (inOrder [sameLine, keyword "satisfies", .rule .type])]
  inOrder [.gap, .extend .other (.rule .operand) (repeated tail)]

/-- Expressions with commas between them. -/
def expressionsRule : Expr Symbol :=
  inOrder
    [.gap, .extend .other (.rule .assignment) (repeated (inOrder [token ",", .rule .assignment]))]

end AccessAudit.Markup.Grammar
