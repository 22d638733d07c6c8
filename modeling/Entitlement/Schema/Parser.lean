import Entitlement.Text.Blank
import Entitlement.Schema.Document
import Entitlement.Schema.SyntaxError

/-!
# Reading schema documents

`parse` reads a schema text as a document. It reads declaration by
declaration. One that is broken is left out, its error is recorded, and
the reading goes on at the next place where a declaration can start, so
one reading reports every broken declaration. A document is returned only
if there was no error.

A reading step takes a `Cursor`, the tokens ahead, and either returns what
it read and the cursor behind it, or fails with one error and the cursor
where it stopped. The loops count down from the number of tokens ahead;
every round takes at least one token, so the count is never what ends
them.
-/

namespace Entitlement

/-! ## Cursors -/

/-- **The tokens that are still to be read**, and the token for the end of
the text, which stands behind them as often as it is asked for. -/
structure Cursor where
  ahead : List Token
  stop : Token
  deriving DecidableEq, Repr

namespace Cursor

/-- The next token. -/
def current (c : Cursor) : Token := c.ahead.headD c.stop

/-- The token behind the next one. -/
def following (c : Cursor) : Token := c.ahead.tail.headD c.stop

/-- The cursor behind the next token. -/
def advance (c : Cursor) : Cursor := { c with ahead := c.ahead.tail }

/-- The kind of the next token. -/
def kind (c : Cursor) : TokenKind := c.current.kind

/-- The cursor at the first token ahead of one of some kinds, or at the
end. -/
def skipTo (c : Cursor) (kinds : List TokenKind) : Cursor :=
  { c with ahead := c.ahead.dropWhile fun t => !kinds.contains t.kind }

/-- The places where a declaration of a document can start. -/
def skipToDeclaration (c : Cursor) : Cursor :=
  c.skipTo [.keyword .entity, .keyword .rule]

/-- The places where an entity type can go on or end. -/
def skipToMember (c : Cursor) : Cursor :=
  c.skipTo [.keyword .relation, .keyword .attr, .keyword .permission,
    .keyword .action, .mark .rBrace, .keyword .entity]

end Cursor

/-! ## Steps -/

/-- Why a step failed, and where it stopped. -/
structure Breakage where
  error : SyntaxError
  rest : Cursor
  deriving DecidableEq, Repr

/-- **A reading step.** -/
abbrev Step (α : Type) := StateT Cursor (Except Breakage) α

namespace Step

variable {α : Type}

/-- Fails with an error at the next token. -/
def fail (fault : Token → SyntaxFault) : Step α := fun c =>
  .error ⟨.atToken c.current (fault c.current), c⟩

/-- The kind of the next token. -/
def peek : Step TokenKind := fun c => .ok (c.kind, c)

/-- Takes the next token. -/
def take : Step Token := fun c => .ok (c.current, c.advance)

/-- Takes a token of a given kind. -/
def token (kind : TokenKind) (role : String) : Step Token := fun c =>
  if c.kind = kind then .ok (c.current, c.advance)
  else .error ⟨.atToken c.current (.expectedToken kind role c.current), c⟩

/-- Takes a name. -/
def name (what : String) : Step String := fun c =>
  if c.kind = .identifier then .ok (c.current.value, c.advance)
  else .error ⟨.atToken c.current (.expectedName what c.current), c⟩

/-- Names separated by commas, at least one. -/
def names (what : String) : Nat → Step (List String)
  | 0 => do
    let first ← name what
    pure [first]
  | count + 1 => do
    let first ← name what
    if (← peek) = .mark .comma then
      let _ ← take
      let rest ← names what count
      pure (first :: rest)
    else pure [first]

end Step

/-! ## Passages kept as written -/

/-- Blank text without its comments. A comment is dropped up to the next
line feed, which stays. -/
def dropComments (inComment : Bool) : List Char → List Char
  | [] => []
  | '\n' :: cs => '\n' :: dropComments false cs
  | '/' :: '/' :: cs => dropComments true cs
  | c :: cs => if inComment then dropComments true cs else c :: dropComments false cs

/-- **The text up to the token that closes a passage**, without comments,
and the tokens behind it; `depth` counts the openings inside the passage
that are not closed yet. -/
def passage (opening closing : TokenKind) (depth : Nat) :
    List Token → Option (List Char × List Token)
  | [] => none
  | t :: ts =>
    let blank := dropComments false t.leading
    if t.kind = opening then
      (passage opening closing (depth + 1) ts).map fun (text, rest) =>
        (blank ++ t.text ++ text, rest)
    else if t.kind = closing then
      match depth with
      | 0 => some (blank, ts)
      | depth + 1 =>
        (passage opening closing depth ts).map fun (text, rest) =>
          (blank ++ t.text ++ text, rest)
    else
      (passage opening closing depth ts).map fun (text, rest) =>
        (blank ++ t.text ++ text, rest)

/-- The trimmed passage behind the token `opening`; an empty one is the
fault `empty` there. -/
def Step.captured (opening : Token) (closing : TokenKind) (what : String)
    (empty : SyntaxFault) : Step String := fun c =>
  match passage opening.kind closing 0 c.ahead with
  | none =>
    .error ⟨.atToken opening (.unterminated what closing),
      { c with ahead := [] }⟩
  | some (text, rest) =>
    let c := { c with ahead := rest }
    match trimBlanks text with
    | [] => .error ⟨.atToken opening empty, c⟩
    | text => .ok (String.ofList text, c)

/-! ## Permission expressions -/

/-- The word that joins operands. -/
def Connective.keyword : Connective → Keyword
  | .or => .or
  | .and => .and

namespace PermissionExpr

/-- The operands that follow `left` behind a connective, grouped to the
left. -/
def readChain (op : Connective) (operand : Step PermissionExpr) :
    Nat → PermissionExpr → Step PermissionExpr
  | 0, left => pure left
  | count + 1, left => do
    if (← Step.peek) = .keyword op.keyword then
      let _ ← Step.take
      let right ← operand
      readChain op operand count (.binary op left right)
    else pure left

/-- An operand, perhaps behind one `not`. -/
def readUnary (primary : Step PermissionExpr) : Step PermissionExpr := do
  if (← Step.peek) = .keyword .not then
    let _ ← Step.take
    let operand ← primary
    pure (.not operand)
  else primary

/-- Operands joined by `and`. -/
def readConjunction (primary : Step PermissionExpr) (count : Nat) :
    Step PermissionExpr := do
  let first ← readUnary primary
  readChain .and (readUnary primary) count first

/-- Conjunctions joined by `or`. -/
def readDisjunction (primary : Step PermissionExpr) (count : Nat) :
    Step PermissionExpr := do
  let first ← readConjunction primary count
  readChain .or (readConjunction primary count) count first

/-- The call of a declared rule. -/
def readCall (count : Nat) : Step PermissionExpr := do
  let rule ← Step.take
  let _ ← Step.take
  let arguments ←
    if (← Step.peek) = .mark .rParen then pure []
    else Step.names "rule call argument" count
  let _ ← Step.token (.mark .rParen) "to close rule call arguments"
  pure (.call rule.value arguments)

/-- A name, a member, a call, an expression on the spot or a group in
parentheses. -/
def readPrimary (group : Step PermissionExpr) (count : Nat) :
    Step PermissionExpr := fun c =>
  match c.kind, c.following.kind with
  | .mark .lParen, _ => (do
      let _ ← Step.take
      let inner ← group
      let _ ← Step.token (.mark .rParen) "to close parenthesised expression"
      pure inner : Step PermissionExpr) c
  | .keyword .rule, _ => (do
      let _ ← Step.take
      let opening ← Step.token (.mark .lParen) "after 'rule'"
      let expression ← Step.captured opening (.mark .rParen)
        "inline rule expression" .emptyInline
      pure (.inline expression) : Step PermissionExpr) c
  | .identifier, .mark .lParen => readCall count c
  | .identifier, .mark .dot => (do
      let relation ← Step.take
      let _ ← Step.take
      let permission ← Step.name "permission or relation name after '.'"
      pure (.member relation.value permission) : Step PermissionExpr) c
  | .identifier, _ => (do
      let token ← Step.take
      pure (.name token.value) : Step PermissionExpr) c
  | _, _ => Step.fail .expectedOperand c

/-- **A permission expression**, of at most `count` nested groups. -/
def read : Nat → Step PermissionExpr
  | 0 => Step.fail .expectedOperand
  | count + 1 => readDisjunction (readPrimary (read count) count) count

end PermissionExpr

/-! ## Declarations -/

/-- The subjects that a relation admits: an `@` and a type each, with a
relation behind `#`. -/
def TargetDecl.readAll : Nat → Step (List TargetDecl)
  | 0 => pure []
  | count + 1 => do
    if (← Step.peek) = .mark .atSign then
      let _ ← Step.take
      let entity ← Step.name "target entity type after '@'"
      let relation ←
        if (← Step.peek) = .mark .hash then do
          let _ ← Step.take
          some <$> Step.name "userset relation after '#'"
        else pure none
      let rest ← readAll count
      pure (⟨entity, relation⟩ :: rest)
    else pure []

/-- A relation, from its keyword on. -/
def RelationDecl.read (count : Nat) : Step RelationDecl := do
  let _ ← Step.take
  let name ← Step.name "relation name"
  if (← Step.peek) = .mark .atSign then
    let targets ← TargetDecl.readAll count
    pure ⟨name, targets⟩
  else Step.fail (.missingTarget name)

/-- An attribute, from its keyword on. -/
def AttributeDecl.read : Step AttributeDecl := do
  let _ ← Step.take
  let name ← Step.name "attribute name"
  let typeName ← Step.name "attribute type"
  if (← Step.peek) = .mark .lBracket then
    let _ ← Step.take
    let _ ← Step.token (.mark .rBracket) "after '[' in array type"
    pure ⟨name, typeName, true⟩
  else pure ⟨name, typeName, false⟩

/-- A permission, from its keyword on. -/
def PermissionDecl.read (count : Nat) : Step PermissionDecl := do
  let _ ← Step.take
  let name ← Step.name "permission name"
  let _ ← Step.token (.mark .assign) "after permission name"
  let expr ← PermissionExpr.read count
  pure ⟨name, expr⟩

/-- A rule, from its keyword on. -/
def RuleDecl.read (count : Nat) : Step RuleDecl := do
  let _ ← Step.take
  let name ← Step.name "rule name"
  let _ ← Step.token (.mark .lParen) "after rule name"
  let parameters ← Step.names "rule parameter name" count
  let _ ← Step.token (.mark .rParen) "to close rule parameters"
  let opening ← Step.token (.mark .lBrace) "to open rule body"
  let body ← Step.captured opening (.mark .rBrace) "rule body" (.emptyBody name)
  pure ⟨name, parameters, body⟩

/-! ## Entity types -/

/-- One declaration inside an entity type. -/
inductive EntityMember
  | relation (decl : RelationDecl)
  | attr (decl : AttributeDecl)
  | permission (decl : PermissionDecl)
  deriving DecidableEq, Repr

namespace EntityMember

/-- The relation that a member declares. -/
def relation? : EntityMember → Option RelationDecl
  | relation decl => some decl
  | _ => none

/-- The attribute that a member declares. -/
def attribute? : EntityMember → Option AttributeDecl
  | attr decl => some decl
  | _ => none

/-- The permission that a member declares. -/
def permission? : EntityMember → Option PermissionDecl
  | permission decl => some decl
  | _ => none

/-- The member that the next token announces. -/
def read? (count : Nat) : TokenKind → Option (Step EntityMember)
  | .keyword .relation => some (relation <$> RelationDecl.read count)
  | .keyword .attr => some (attr <$> AttributeDecl.read)
  | .keyword .permission => some (permission <$> PermissionDecl.read count)
  | .keyword .action => some (permission <$> PermissionDecl.read count)
  | _ => none

end EntityMember

/-- The entity type with the given members, in their order. -/
def EntityDecl.ofMembers (name : String) (members : List EntityMember) :
    EntityDecl where
  name := name
  relations := members.filterMap EntityMember.relation?
  attributes := members.filterMap EntityMember.attribute?
  permissions := members.filterMap EntityMember.permission?

/-- What a loop over declarations found: the sound ones, the errors of the
others, and where it stopped. -/
structure Harvest (α : Type) where
  items : List α
  errors : List SyntaxError
  rest : Cursor

namespace Harvest

variable {α : Type}

/-- Nothing, up to a cursor. -/
def nothing (c : Cursor) : Harvest α := ⟨[], [], c⟩

/-- One more declaration in front. -/
def withItem (item : α) (h : Harvest α) : Harvest α :=
  { h with items := item :: h.items }

/-- More errors in front. -/
def withErrors (errors : List SyntaxError) (h : Harvest α) : Harvest α :=
  { h with errors := errors ++ h.errors }

end Harvest

/-- **The members of an entity type** up to its closing brace, which is
taken. A broken member is skipped, and so is a token that starts none; the
end of the text and the next entity type end the members with an error. -/
def readMembers (entity : String) : Nat → Cursor → Harvest EntityMember
  | 0, c => .nothing c
  | count + 1, c =>
    match c.kind with
    | .mark .rBrace => .nothing c.advance
    | .endOfText | .keyword .entity =>
      (Harvest.nothing c).withErrors
        [.atToken c.current (.unclosedEntity entity)]
    | kind =>
      match EntityMember.read? count kind with
      | none =>
        (readMembers entity count c.advance).withErrors
          [.atToken c.current (.unexpectedInEntity entity c.current)]
      | some step =>
        match step c with
        | .ok (item, rest) => (readMembers entity count rest).withItem item
        | .error broken =>
          (readMembers entity count broken.rest.skipToMember).withErrors
            [broken.error]

/-- The head of an entity type, from its keyword to its opening brace. -/
def EntityDecl.readHead : Step String := do
  let _ ← Step.take
  let name ← Step.name "entity name"
  let _ ← Step.token (.mark .lBrace) "to open entity body"
  pure name

/-! ## Documents -/

/-- One declaration of a document. -/
inductive Declaration
  | rule (decl : RuleDecl)
  | entity (decl : EntityDecl)
  deriving DecidableEq, Repr

namespace Declaration

/-- The rule that is declared. -/
def rule? : Declaration → Option RuleDecl
  | rule decl => some decl
  | _ => none

/-- The entity type that is declared. -/
def entity? : Declaration → Option EntityDecl
  | entity decl => some decl
  | _ => none

end Declaration

/-- The document with the given declarations, in their order. -/
def Document.ofDeclarations (declarations : List Declaration) : Document where
  rules := declarations.filterMap Declaration.rule?
  entities := declarations.filterMap Declaration.entity?

/-- **The declarations ahead**, up to the end of the text. -/
def readDeclarations : Nat → Cursor → Harvest Declaration
  | 0, c => .nothing c
  | count + 1, c =>
    match c.kind with
    | .endOfText => .nothing c
    | .keyword .entity =>
      match EntityDecl.readHead c with
      | .ok (name, rest) =>
        let members := readMembers name count rest
        ((readDeclarations count members.rest).withItem
          (.entity (.ofMembers name members.items))).withErrors members.errors
      | .error broken =>
        (readDeclarations count broken.rest.skipToDeclaration).withErrors
          [broken.error]
    | .keyword .rule =>
      match RuleDecl.read count c with
      | .ok (decl, rest) => (readDeclarations count rest).withItem (.rule decl)
      | .error broken =>
        (readDeclarations count broken.rest.skipToDeclaration).withErrors
          [broken.error]
    | _ =>
      (readDeclarations count c.advance).withErrors
        [.atToken c.current (.unexpectedInDocument c.current)]

/-- The cursor in front of a token list that ends with the end of the
text. -/
def Cursor.ofTokens (tokens : List Token) : Cursor where
  ahead := tokens.dropLast
  stop := tokens.getLastD ⟨.endOfText, [], [], .start⟩

/-- The document of a token list, or every error in it. -/
def parseTokens (tokens : List Token) : Except (List SyntaxError) Document :=
  let found := readDeclarations (tokens.length + 1) (.ofTokens tokens)
  match found.errors with
  | [] => .ok (.ofDeclarations found.items)
  | errors => .error errors

/-- **The document of a schema text**, or every error in it. -/
def parse (source : String) : Except (List SyntaxError) Document :=
  match tokenize source with
  | .error e => .error [.ofLexError e]
  | .ok tokens => parseTokens tokens

end Entitlement
