import AccessAudit.Markup.Grammar.Symbol
import AccessAudit.Markup.Grammar.Token

/-!
# Markup

The grammar of elements inside expressions: tags with attributes, text, character references and
expressions in braces.  A closing tag may have any name.
-/

namespace AccessAudit.Markup.Grammar

open AccessAudit.Markup.Grammar.Expr

/-- The name of a tag: a word, words with points between them, or two words with a colon.  There
are no hyphens in words with points between them. -/
def tagNameRule : Expr Symbol :=
  let part := inOrder [.gap, .leaf .identifier tagWord]
  inOrder
    [.gap,
     choice
       [.leaf .namespaced (inOrder [part, token ":", part]),
        .leaf .member (inOrder [anyName, repeated (inOrder [token ".", anyName])]),
        .leaf .identifier tagWord]]

/-- The value of an attribute. -/
def attributeValue : Expr Symbol :=
  choice
    [inOrder [.gap, .leaf .string (choice [attributeString '"', attributeString '\''])],
     .rule .container, .rule .markup]

/-- An attribute, or a container in its place. -/
def attributeRule : Expr Symbol :=
  let part := inOrder [.gap, .leaf .identifier tagWord]
  let name :=
    choice [.leaf .namespaced (inOrder [part, token ":", part]), .leaf .identifier tagWord]
  choice
    [inOrder [.gap, .node .attribute (inOrder [name, opt (inOrder [token "=", attributeValue])])],
     .rule .container]

/-- An expression or a spread in braces; there may be nothing in them. -/
def containerRule : Expr Symbol :=
  phrase .container [.text ['\x7b'], opt (choice [.rule .spread, .rule .expressions]), token "\x7d"]

/-- Characters of text between tags. -/
def isTextChar (c : Char) : Bool :=
  c != '<' && c != '>' && c != '\x7b' && c != '\x7d' && c != '&'

/-- A child of an element. -/
def child : Expr Symbol :=
  choice
    [.leaf .text (inOrder [.char isTextChar, .span isTextChar]), .leaf .other reference,
     pageComment ["<!--"], .rule .markup, .rule .container]

/-- The name of a tag with type arguments, and the attributes after it. -/
def tagHead (d : Dialect) : Expr Symbol :=
  inOrder
    [.role .name (.rule .tagName), if d = .tsx then opt (.rule .typeArguments) else .empty,
     .star (.rule .attribute)]

/-- What follows the head of an opening tag: its end, the children and a closing tag. -/
def elementTail : Expr Symbol :=
  inOrder
    [token ">", .close .openingTag .openTag false, .star child,
     .node .closingTag (inOrder [.text ['<', '/'], opt (.rule .tagName), token ">"]),
     .close .element .plain false]

/-- An element in one tag, an element with an opening and a closing tag, or a fragment. -/
def markupRule (d : Dialect) : Expr Symbol :=
  inOrder
    [.gap,
     .scope (inOrder
       [.text ['<'],
        choice
          [inOrder
             [tagHead d,
              choice [inOrder [token "/>", .close .selfClosing .plain false], elementTail]],
           elementTail]])]

end AccessAudit.Markup.Grammar
