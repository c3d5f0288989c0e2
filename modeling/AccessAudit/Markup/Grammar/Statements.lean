import AccessAudit.Markup.Grammar.Expressions

/-!
# Statements

The grammar of statements and declarations.  Every statement is a node, so that the children of the
whole source are its top-level statements.
-/

namespace AccessAudit.Markup.Grammar

open AccessAudit.Markup.Grammar.Expr

/-- Words that begin a statement and do not stand for a variable there. -/
def statementWords (d : Dialect) : List String :=
  let common :=
    ["if", "for", "while", "do", "switch", "try", "with", "break", "continue", "return", "throw",
     "debugger", "var", "const", "import"]
  match d with
  | .tsx => "interface" :: "enum" :: "abstract" :: common
  | .jsx => common

/-! ### Declarations -/

/-- One name of a declaration, with its value. -/
def declarator (d : Dialect) : Expr Symbol :=
  phrase .declarator
    [.role .name (choice [anyName, .rule .pattern]), typedOpt d (token "!"),
     typedOpt d typeAnnotation, opt (inOrder [token "=", .role .value (.rule .assignment)])]

/-- A declaration of variables up to the end of its statement. -/
def variableDeclaration (d : Dialect) (ending : Expr Symbol) : Expr Symbol :=
  choice
    [phrase .lexicalDeclaration
       [choice [keyword "const", inOrder [keyword "let", .unless (.test (endsStatement d true))]],
        commaSep (declarator d), ending],
     phrase .variableDeclaration [keyword "var", commaSep (declarator d), ending]]

/-- A function declaration. -/
def functionDeclaration : Expr Symbol :=
  phrase .functionDeclaration
    [opt (inOrder [keyword "async", sameLine]), keyword "function", opt (token "*"),
     .role .name anyName, .rule .signature, .rule .block]

/-- A class declaration. -/
def classDeclaration (d : Dialect) : Expr Symbol :=
  phrase .other
    [.rule .decorators, typedOpt d (inOrder [keyword "abstract", sameLine]), keyword "class",
     nameExcept ["extends", "implements"], .rule .classTail]

/-- Declarations of the dialect with types that hold no value. -/
def typeDeclaration : Expr Symbol :=
  let member := inOrder [.rule .propertyName, opt initializer]
  let body := inOrder [token "\x7b", commaSep (opt member), token "\x7d"]
  choice
    [phrase .other
       [opt (keyword "async"), keyword "function", opt (token "*"), anyName, .rule .signature,
        semicolon .tsx false],
     phrase .other
       [keyword "interface", anyName, opt (.rule .typeParameters),
        opt (inOrder [keyword "extends", commaSep (.rule .type)]), .rule .objectType],
     phrase .other
       [keyword "type", sameLine, anyName, opt (.rule .typeParameters), token "=", .rule .type,
        semicolon .tsx false],
     phrase .other [opt (keyword "const"), keyword "enum", anyName, body],
     phrase .other
       [choice [keyword "namespace", keyword "module"], sameLine, choice [string, dottedName],
        opt (.rule .block), opt (semicolon .tsx false)],
     phrase .other
       [keyword "declare", sameLine,
        choice [inOrder [keyword "global", .rule .block], .rule .declaration]]]

/-- A declaration. -/
def declarationRule (d : Dialect) : Expr Symbol :=
  choice
    [functionDeclaration, variableDeclaration d (semicolon d true), classDeclaration d,
     typed d typeDeclaration]

/-! ### Imports and exports -/

/-- The name of something imported or exported. -/
def moduleName : Expr Symbol :=
  choice [anyName, string]

/-- Names in braces, each with an optional new name. -/
def specifiers (d : Dialect) : Expr Symbol :=
  let specifier :=
    choice
      [typed d (inOrder
         [keyword "type", moduleName, opt (inOrder [keyword "as", moduleName]),
          .look (choice [token ",", token "\x7d"])]),
       inOrder [moduleName, opt (inOrder [keyword "as", moduleName])]]
  inOrder [token "\x7b", opt (inOrder [commaSep specifier, opt (token ",")]), token "\x7d"]

/-- The source of an import or export, with its attributes. -/
def moduleSource : Expr Symbol :=
  inOrder [string, opt (inOrder [choice [keyword "with", keyword "assert"], .rule .object])]

/-- An import. -/
def importStatement (d : Dialect) : Expr Symbol :=
  let whole := inOrder [token "*", keyword "as", anyName]
  let clause :=
    choice
      [whole, specifiers d,
       inOrder [anyName, opt (inOrder [token ",", choice [whole, specifiers d]])]]
  let typeMark := typed d (choice [keyword "type", keyword "typeof"])
  phrase .other
    [keyword "import", .unless (choice [token "(", token "."]),
     choice
       [moduleSource, inOrder [typeMark, clause, keyword "from", moduleSource],
        inOrder [clause, keyword "from", moduleSource],
        typed d (inOrder
          [opt typeMark, anyName, token "=",
           choice [inOrder [keyword "require", .rule .arguments], dottedName]])],
     semicolon d false]

/-- An export.  At the end of a line the word alone is a variable's name. -/
def exportStatement (d : Dialect) : Expr Symbol :=
  let source := inOrder [keyword "from", moduleSource]
  phrase .export_
    [.rule .decorators, keyword "export", .unless (.test (endsStatement d true)),
     choice
       [inOrder [token "*", opt (inOrder [keyword "as", moduleName]), source, semicolon d false],
        inOrder [typedOpt d (keyword "type"), specifiers d, opt source, semicolon d false],
        inOrder
          [keyword "default",
           choice
             [.role .declaration (.rule .declaration),
              inOrder [.role .value (.rule .assignment), semicolon d true]]],
        .role .declaration (.rule .declaration),
        typed d (inOrder [token "=", .rule .assignment, semicolon d true]),
        typed d (inOrder [keyword "as", keyword "namespace", anyName, semicolon d false]),
        typed d (inOrder [.look (keyword "import"), importStatement d])]]

/-! ### Control flow -/

/-- The head of a loop in parentheses. -/
def loopHead (d : Dialect) : Expr Symbol :=
  let left :=
    choice
      [inOrder
         [choice [keyword "const", keyword "let", keyword "var"], choice [.rule .pattern, anyName],
          typedOpt d typeAnnotation],
       .rule .postfixed, .rule .pattern]
  inOrder
    [token "(",
     choice
       [inOrder [left, choice [keyword "of", keyword "in"], .rule .expressions],
        inOrder
          [choice
             [variableDeclaration d (token ";"), inOrder [opt (.rule .expressions), token ";"]],
           opt (.rule .expressions), token ";", opt (.rule .expressions)]],
     token ")"]

/-- A branch of a switch. -/
def switchCase : Expr Symbol :=
  let head :=
    choice
      [inOrder [keyword "case", .rule .expressions, token ":"],
       inOrder [keyword "default", token ":"]]
  phrase .other
    [head, .star (inOrder [.unless (choice [keyword "case", keyword "default"]), .rule .statement])]

/-- A further part of a statement, which is there if its word is. -/
def clause (word : String) (e : Expr Symbol) : Expr Symbol :=
  choice [inOrder [keyword word, e], .unless (keyword word)]

/-- Statements that begin with a word of their own. -/
def controlStatement (d : Dialect) : Expr Symbol :=
  let condition := .rule .parenthesized
  let jump (word : String) : Expr Symbol :=
    inOrder
      [keyword word,
       choice [.test (endsStatement d false), inOrder [opt anyName, semicolon d false]]]
  choice
    [phrase .return_
       [keyword "return",
        choice
          [token ";", .test (endsStatement d false),
           inOrder [.rule .expressions, semicolon d true]]],
     phrase .other [keyword "if", condition, .rule .statement, clause "else" (.rule .statement)],
     phrase .other [keyword "for", opt (keyword "await"), loopHead d, .rule .statement],
     phrase .other [keyword "while", condition, .rule .statement],
     phrase .other [keyword "do", .rule .statement, keyword "while", condition, opt (token ";")],
     phrase .other [keyword "switch", condition, token "\x7b", .star switchCase, token "\x7d"],
     phrase .other
       [keyword "try", .rule .block,
        clause "catch" (inOrder
          [opt (inOrder [token "(", .rule .pattern, typedOpt d typeAnnotation, token ")"]),
           .rule .block]),
        clause "finally" (.rule .block)],
     phrase .other [keyword "with", condition, .rule .statement],
     phrase .other [keyword "throw", .rule .expressions, semicolon d true],
     inOrder [.gap, .node .other (jump "break")], inOrder [.gap, .node .other (jump "continue")],
     phrase .other [keyword "debugger", semicolon d false]]

/-- A block of statements. -/
def blockRule : Expr Symbol :=
  phrase .other [.text ['\x7b'], .star (.rule .statement), token "\x7d"]

/-- An expression as a statement.  A function or class with a name is a declaration instead. -/
def expressionStatement (d : Dialect) : Expr Symbol :=
  let named :=
    choice
      [inOrder
         [opt (inOrder [keyword "async", sameLine]), keyword "function", opt (token "*"), .gap,
          .char isWordStart],
       inOrder
         [keyword "class", .gap, .test (fun s => !startsWithWord ["extends"] s), .char isWordStart]]
  phrase .other
    [(.test fun s => !startsWithWord (statementWords d) s || (startsWithWord ["import"] s)),
     .unless named, .rule .expressions, semicolon d true]

/-- A statement. -/
def statementRule (d : Dialect) : Expr Symbol :=
  inOrder
    [.gap, .star (inOrder [pageComment ["<!--", "-->"], .gap]),
     choice
       [.rule .block, .node .other (.text [';']), .rule .declaration, exportStatement d,
        importStatement d, controlStatement d,
        phrase .other
          [nameExcept (statementWords d ++ expressionWords), token ":", .rule .statement],
        expressionStatement d]]

/-- A whole source: an optional interpreter line and statements. -/
def programRule : Expr Symbol :=
  inOrder
    [opt (inOrder [.text ['#', '!'], .span fun c => !endsLine c]), .star (.rule .statement), .gap,
     .star (inOrder [pageComment ["<!--", "-->"], .gap]), .test List.isEmpty]

end AccessAudit.Markup.Grammar
