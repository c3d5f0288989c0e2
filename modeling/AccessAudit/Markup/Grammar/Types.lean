import AccessAudit.Markup.Grammar.Symbol
import AccessAudit.Markup.Grammar.Token

/-!
# Types

The grammar of type annotations.  Types are read to know where they end; nothing is taken from
them.
-/

namespace AccessAudit.Markup.Grammar

open AccessAudit.Markup.Grammar.Expr

/-- A semicolon, or the end of a statement. -/
def semicolon (d : Dialect) (afterValue : Bool) : Expr Symbol :=
  choice [token ";", .test (endsStatement d afterValue)]

/-- A condition: no line ends in the gap ahead. -/
def sameLine : Expr Symbol :=
  .test fun s => !breaksLine s

/-- Names with points between them. -/
def dottedName : Expr Symbol :=
  inOrder [anyName, .star (inOrder [token ".", anyName])]

/-- A type after a colon. -/
def typeAnnotation : Expr Symbol :=
  inOrder [token ":", .rule .type]

/-- The type of a result, which may say something about a parameter. -/
def outcomeType : Expr Symbol :=
  choice
    [inOrder [keyword "asserts", sameLine, anyName, opt (inOrder [keyword "is", .rule .type])],
     inOrder [anyName, sameLine, keyword "is", .rule .type], .rule .type]

/-- The type of a result after a colon. -/
def resultType : Expr Symbol :=
  inOrder [token ":", outcomeType]

/-- Type parameters: names with bounds and defaults in angle brackets. -/
def typeParametersRule : Expr Symbol :=
  let parameter :=
    inOrder
      [opt (inOrder [keyword "const", .look (inOrder [.gap, .char isWordStart])]), anyName,
       opt (inOrder [keyword "extends", .rule .type]), opt (inOrder [token "=", .rule .type])]
  inOrder [token "<", commaSep parameter, opt (token ","), token ">"]

/-- Type arguments in angle brackets. -/
def typeArgumentsRule : Expr Symbol :=
  phrase .other [.text ['<'], commaSep (.rule .type), opt (token ","), token ">"]

/-- A member of an object type. -/
def typeMember : Expr Symbol :=
  let signed (e : Expr Symbol) : Expr Symbol := inOrder [opt (choice [token "+", token "-"]), e]
  let memberName :=
    inOrder
      [.star
         (choice
           (["readonly", "get", "set"].map fun m =>
             inOrder
               [keyword m,
                .look (inOrder [.gap, .char fun c => isWordPart c || "\"'[".toList.contains c])])),
       .rule .propertyName, opt (token "?")]
  choice
    [inOrder
       [opt (signed (keyword "readonly")), token "[", anyName, keyword "in", .rule .type,
        opt (inOrder [keyword "as", .rule .type]), token "]", opt (signed (token "?")),
        opt typeAnnotation],
     inOrder
       [opt (keyword "readonly"), token "[", anyName, typeAnnotation, token "]", opt (token "?"),
        typeAnnotation],
     inOrder [opt (keyword "new"), opt (.rule .typeParameters), .rule .parameters, opt resultType],
     inOrder [memberName, opt (.rule .typeParameters), .rule .parameters, opt resultType],
     inOrder [memberName, opt typeAnnotation]]

/-- The members of an object type in braces. -/
def objectTypeRule (d : Dialect) : Expr Symbol :=
  inOrder
    [token "\x7b",
     .star (inOrder [typeMember, choice [token ";", token ",", .test (endsStatement d false)]]),
     token "\x7d"]

/-- A type without operators. -/
def simpleType : Expr Symbol :=
  let element :=
    inOrder
      [opt (token "..."), opt (inOrder [anyName, opt (token "?"), token ":"]), .rule .type,
       opt (token "?")]
  let imported :=
    inOrder [keyword "import", token "(", string, token ")", .star (inOrder [token ".", anyName])]
  choice
    [inOrder [token "(", .rule .type, token ")"],
     inOrder [token "[", commaSep (opt element), token "]"], .rule .objectType, string,
     inOrder [opt (token "-"), .gap, .leaf .number number], inOrder [.gap, .rule .template],
     inOrder [keyword "typeof", choice [imported, dottedName], opt (.rule .typeArguments)],
     inOrder [imported, opt (.rule .typeArguments)],
     inOrder [dottedName, opt (inOrder [sameLine, .rule .typeArguments])]]

/-- A type with prefixes and indices. -/
def indexedTypeRule : Expr Symbol :=
  choice
    [inOrder
       [choice
          (["keyof", "unique", "readonly"].map fun w =>
            inOrder
              [keyword w,
               .look (inOrder
                 [.gap, .char fun c => isWordPart c || "([\x7b\"'".toList.contains c])]),
        .rule .indexedType],
     inOrder [keyword "infer", anyName],
     inOrder [simpleType, .star (inOrder [sameLine, token "[", opt (.rule .type), token "]"])]]

/-- A type. -/
def typeRule : Expr Symbol :=
  let bar := inOrder [token "|", .unless (.text ['|'])]
  let both := inOrder [token "&", .unless (.text ['&'])]
  let intersection :=
    inOrder [opt both, .rule .indexedType, .star (inOrder [both, .rule .indexedType])]
  let union := inOrder [opt bar, intersection, .star (inOrder [bar, intersection])]
  choice
    [inOrder
       [opt (keyword "abstract"), opt (keyword "new"), opt (.rule .typeParameters),
        .rule .parameters, token "=>", outcomeType],
     inOrder
       [union,
        opt (inOrder
          [sameLine, keyword "extends", .rule .type, token "?", .rule .type, token ":",
           .rule .type])]]

end AccessAudit.Markup.Grammar
