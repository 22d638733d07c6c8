import Entitlement.Schema.Lexer

/-!
# Errors in schema texts

A text that is no schema document is answered with all that is wrong with
it, each error with its place. `SyntaxFault` lists the causes, and
`SyntaxFault.message` words them. A text that does not even split into
tokens has the one error of its first bad place.
-/

namespace Entitlement

/-- **What is wrong at a place of a schema text.** -/
inductive SyntaxFault
  /-- The text has no token there. -/
  | lexical (fault : LexFault)
  /-- A particular token is missing; `role` says what it would do there. -/
  | expectedToken (kind : TokenKind) (role : String) (found : Token)
  /-- A name is missing; `what` says of what. -/
  | expectedName (what : String) (found : Token)
  /-- Something other than a declaration stands between declarations. -/
  | unexpectedInDocument (found : Token)
  /-- Something other than a declaration stands in an entity type. -/
  | unexpectedInEntity (entity : String) (found : Token)
  /-- The declaration of an entity type does not end. -/
  | unclosedEntity (entity : String)
  /-- A relation admits no subject. -/
  | missingTarget (relation : String) (found : Token)
  /-- A passage in brackets does not end. -/
  | unterminated (what : String) (close : TokenKind)
  /-- A rule has no body. -/
  | emptyBody (rule : String)
  /-- An expression written on the spot is empty. -/
  | emptyInline
  /-- A permission expression has no operand where one must stand. -/
  | expectedOperand (found : Token)
  deriving DecidableEq, Repr

/-- The wording of a fault. -/
def SyntaxFault.message : SyntaxFault → String
  | .lexical fault => LexError.reason ⟨fault, 1, 1⟩
  | .expectedToken kind role found =>
    s!"expected {kind.description} {role}, found {found.description}"
  | .expectedName what found => s!"expected {what}, found {found.description}"
  | .unexpectedInDocument found =>
    s!"unexpected {found.description}, expected 'entity' or 'rule' definition"
  | .unexpectedInEntity entity found =>
    s!"unexpected {found.description} in entity '{entity}', " ++
      "expected relation, attribute or permission"
  | .unclosedEntity entity => s!"missing '\x7d' to close entity '{entity}'"
  | .missingTarget relation found =>
    s!"relation '{relation}' must declare at least one '@type' target, " ++
      s!"found {found.description}"
  | .unterminated what close =>
    s!"unterminated {what}: missing {close.description}"
  | .emptyBody rule => s!"rule '{rule}' has an empty body"
  | .emptyInline => "inline rule expression is empty"
  | .expectedOperand found =>
    "expected relation, permission, rule call or '(' but found " ++
      found.description

/-- **A syntax error**: what is wrong, and where. -/
structure SyntaxError where
  fault : SyntaxFault
  line : Nat
  column : Nat
  deriving DecidableEq, Repr

namespace SyntaxError

/-- An error at the beginning of a token. -/
def atToken (token : Token) (fault : SyntaxFault) : SyntaxError :=
  ⟨fault, token.position.line, token.position.column⟩

/-- The error of a text that does not split into tokens. -/
def ofLexError (e : LexError) : SyntaxError :=
  ⟨.lexical e.fault, e.line, e.column⟩

/-- The line that reports an error. -/
def message (e : SyntaxError) : String :=
  s!"line {e.line}, column {e.column}: {e.fault.message}"

/-- The report of several errors, a line each. -/
def report (errors : List SyntaxError) : String :=
  "\n".intercalate (errors.map message)

end SyntaxError

end Entitlement
