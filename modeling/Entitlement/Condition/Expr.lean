import Entitlement.Condition.Token

/-!
# Reading conditions

`Expr.parse?` reads the text of a condition as an expression. From the
loosest form to the tightest: a choice with `?` and `:`; `||`; `&&`;
comparisons and `in`, all alike and grouped to the left; `+` and `-`; `*`,
`/` and `%`; a run of `!` or a run of `-`; members, calls and indexes.

A run of `!` or of `-` counts as one, however long it is. A minus directly
in front of a number belongs to the number, unless it ends a run; a number
in hexadecimal digits refuses it.

`has` takes a member and nothing else, and the quantifiers `all`,
`exists`, `exists_one`, `filter` and `map` bind a name over a list; used
in another form they are no expression.
-/

namespace Entitlement.Condition

/-- The operators that take the values of both operands. -/
inductive BinaryOp
  | less | lessEqual | greater | greaterEqual | equal | notEqual | within
  | add | subtract | multiply | divide | remainder
  deriving DecidableEq, Repr

/-- The forms that bind a name over a list. -/
inductive Quantifier
  | all | exists | existsOne | filter | map
  deriving DecidableEq, Repr

/-- **The expressions of conditions.** -/
inductive Expr
  | literal (v : Value)
  | ident (name : String)
  | member (operand : Expr) (name : String)
  | has (operand : Expr) (name : String)
  | index (operand position : Expr)
  | call (name : String) (arguments : List Expr)
  | method (target : Expr) (name : String) (arguments : List Expr)
  | not (operand : Expr)
  | negate (operand : Expr)
  | or (left right : Expr)
  | and (left right : Expr)
  | choice (condition yes no : Expr)
  | binary (op : BinaryOp) (left right : Expr)
  | list (items : List Expr)
  | map (entries : List (Expr × Expr))
  | quantified (q : Quantifier) (range : Expr) (name : String) (body : Expr)
  | mapWhere (range : Expr) (name : String) (condition body : Expr)
  deriving Repr, Inhabited

/-! ## Reading steps -/

/-- A step that reads from the front of a token list, or fails. -/
abbrev Reader (α : Type) := StateT (List Token) Option α

namespace Reader

variable {α : Type}

/-- Fails. -/
def fail : Reader α := fun _ => none

/-- The next token, if there is one. -/
def peek? : Reader (Option Token) := fun ts => some (ts.head?, ts)

/-- Whether the next token is a symbol. -/
def nextIs (s : String) : Reader Bool := fun ts =>
  some (ts.head? == some (.symbol s), ts)

/-- Takes the next token. -/
def skip : Reader Unit := fun ts => some ((), ts.tail)

/-- Takes a symbol. -/
def symbol (s : String) : Reader Unit := fun
  | .symbol t :: rest => if t = s then some ((), rest) else none
  | _ => none

/-- Takes a symbol if it is next, and says whether it was. -/
def accept (s : String) : Reader Bool := fun
  | .symbol t :: rest =>
    if t = s then some (true, rest) else some (false, .symbol t :: rest)
  | ts => some (false, ts)

/-- Items separated by commas, at least one; with `trailing`, a comma may
follow the last, before the symbol `closing`. -/
def sepBy (item : Reader α) (trailing : Option String) : Nat → Reader (List α)
  | 0 => do
    let first ← item
    pure [first]
  | count + 1 => do
    let first ← item
    if ← accept "," then
      match trailing with
      | some closing =>
        if ← nextIs closing then pure [first]
        else (first :: ·) <$> sepBy item trailing count
      | none => (first :: ·) <$> sepBy item trailing count
    else pure [first]

end Reader

/-! ## Names and calls -/

/-- The words that are no names. -/
def reservedWords : List String := ["in", "true", "false", "null"]

/-- Takes a name. -/
def readName : Reader String := fun
  | .name n :: rest => if reservedWords.contains n then none else some (n, rest)
  | _ => none

/-- **The expression of a call without a target.** -/
def Expr.ofCall? (name : String) (arguments : List Expr) : Option Expr :=
  match name, arguments with
  | "has", [member operand field] => some (has operand field)
  | "has", [has operand field] => some (has operand field)
  | "has", [_] => none
  | _, _ => some (call name arguments)

/-- The quantifier of a name and a number of arguments. -/
def Quantifier.ofName? : String → Nat → Option Quantifier
  | "all", 2 => some all
  | "exists", 2 => some .exists
  | "exists_one", 2 => some existsOne
  | "existsOne", 2 => some existsOne
  | "filter", 2 => some filter
  | "map", 2 => some map
  | _, _ => none

/-- **The expression of a call with a target.** -/
def Expr.ofMethod? (target : Expr) (name : String) (arguments : List Expr) :
    Option Expr :=
  match name, arguments with
  | "map", [bound, condition, body] =>
    match bound with
    | ident v => some (mapWhere target v condition body)
    | _ => none
  | _, [bound, body] =>
    match Quantifier.ofName? name 2 with
    | none => some (method target name arguments)
    | some q =>
      match bound with
      | ident v => some (quantified q target v body)
      | _ => none
  | _, _ => some (method target name arguments)

/-! ## Expressions -/

namespace Expr

/-- An optional step's result as a step. -/
def lift (e : Option Expr) : Reader Expr := fun ts => e.map fun e => (e, ts)

/-- The arguments of a call behind its opening parenthesis. -/
def readArguments (inner : Reader Expr) (count : Nat) : Reader (List Expr) := do
  if ← Reader.accept ")" then pure []
  else
    let arguments ← Reader.sepBy inner none count
    Reader.symbol ")"
    pure arguments

/-- The items up to a closing symbol; a comma may follow the last or stand
alone. -/
def readItems {α : Type} (item : Reader α) (closing : String) (count : Nat) :
    Reader (List α) := do
  if ← Reader.accept closing then pure []
  else if ← Reader.accept "," then
    Reader.symbol closing
    pure []
  else
    let items ← Reader.sepBy item (some closing) count
    Reader.symbol closing
    pure items

/-- One entry of a map. -/
def readEntry (inner : Reader Expr) : Reader (Expr × Expr) := do
  let key ← inner
  Reader.symbol ":"
  let value ← inner
  pure (key, value)

/-- A name, or the call of a function of that name. The point that may
stand in front belongs to the name of a function alone. -/
def readNamed (inner : Reader Expr) (count : Nat) (lead : String) :
    Reader Expr := do
  let name ← readName
  if ← Reader.accept "(" then
    let arguments ← readArguments inner count
    lift (ofCall? (lead ++ name) arguments)
  else pure (ident name)

/-- A whole number as a literal, if it fits. -/
def ofInt? (n : Int) : Option Expr :=
  match checkedInt n with
  | .ok v => some (literal v)
  | .error _ => none

/-- A double as a literal; one that is not finite is too large for one. -/
def ofDouble? (d : Double) : Option Expr :=
  if d.isFinite then some (literal (.double d)) else none

/-- The literal of a token that is one. -/
def ofToken? : Token → Option Expr
  | .int n | .hex n => ofInt? n
  | .uint n =>
    match checkedUInt n with
    | .ok v => some (literal v)
    | .error _ => none
  | .double d => ofDouble? d
  | .string s => some (literal (.string s))
  | .bytes bs => some (literal (.bytes bs))
  | .name "true" => some (literal (.bool true))
  | .name "false" => some (literal (.bool false))
  | .name "null" => some (literal .null)
  | _ => none

/-- The literal of a number behind a minus. -/
def ofNegated? : Token → Option Expr
  | .int n => ofInt? (-n)
  | .double d => ofDouble? (-d)
  | _ => none

/-- Whether a minus in front of a token is one literal with it, or would
be. -/
def takesSign : Token → Bool
  | .int _ | .hex _ | .double _ => true
  | _ => false

/-- A literal, a name, a call, a group, a list or a map. -/
def readPrimary (inner : Reader Expr) (count : Nat) : Reader Expr := do
  match ← Reader.peek? with
  | some (.symbol "(") =>
    Reader.skip
    let e ← inner
    Reader.symbol ")"
    pure e
  | some (.symbol "[") =>
    Reader.skip
    list <$> readItems inner "]" count
  | some (.symbol "\x7b") =>
    Reader.skip
    map <$> readItems (readEntry inner) "\x7d" count
  | some (.symbol ".") =>
    Reader.skip
    readNamed inner count "."
  | some (.symbol "-") =>
    Reader.skip
    match ← Reader.peek? with
    | some token =>
      Reader.skip
      lift (ofNegated? token)
    | none => Reader.fail
  | some token =>
    match ofToken? token with
    | some e =>
      Reader.skip
      pure e
    | none => readNamed inner count ""
  | none => Reader.fail

/-- The members, calls and indexes behind an operand. -/
def readSuffixes (inner : Reader Expr) : Nat → Expr → Reader Expr
  | 0, e => pure e
  | count + 1, e => do
    if ← Reader.accept "." then
      let name ← readName
      if ← Reader.accept "(" then
        let arguments ← readArguments inner count
        let e ← lift (ofMethod? e name arguments)
        readSuffixes inner count e
      else readSuffixes inner count (member e name)
    else if ← Reader.accept "[" then
      let position ← inner
      Reader.symbol "]"
      readSuffixes inner count (index e position)
    else pure e

/-- An operand with what stands behind it. -/
def readMember (inner : Reader Expr) (count : Nat) : Reader Expr := do
  let e ← readPrimary inner count
  readSuffixes inner count e

/-- Drops a run of one symbol. -/
def skipRun (s : String) : Reader Unit := fun ts =>
  some ((), ts.dropWhile fun t => t == .symbol s)

/-- An operand behind a run of `!` or of `-`, or alone. -/
def readUnary (inner : Reader Expr) (count : Nat) : Reader Expr := fun ts =>
  match ts with
  | .symbol "!" :: _ => (do
      skipRun "!"
      not <$> readMember inner count : Reader Expr) ts
  | .symbol "-" :: second :: _ =>
    if takesSign second then readMember inner count ts
    else (do
      skipRun "-"
      negate <$> readMember inner count : Reader Expr) ts
  | _ => readMember inner count ts

/-- Operands joined by operators of one level, grouped to the left. -/
def readChain (op? : Token → Option BinaryOp) (operand : Reader Expr) :
    Nat → Expr → Reader Expr
  | 0, left => pure left
  | count + 1, left => do
    match (← Reader.peek?).bind op? with
    | some op =>
      Reader.skip
      let right ← operand
      readChain op? operand count (binary op left right)
    | none => pure left

/-- The operators of products. -/
def productOp? : Token → Option BinaryOp
  | .symbol "*" => some .multiply
  | .symbol "/" => some .divide
  | .symbol "%" => some .remainder
  | _ => none

/-- The operators of sums. -/
def sumOp? : Token → Option BinaryOp
  | .symbol "+" => some .add
  | .symbol "-" => some .subtract
  | _ => none

/-- The operators of relations. -/
def relationOp? : Token → Option BinaryOp
  | .symbol "<" => some .less
  | .symbol "<=" => some .lessEqual
  | .symbol ">" => some .greater
  | .symbol ">=" => some .greaterEqual
  | .symbol "==" => some .equal
  | .symbol "!=" => some .notEqual
  | .name "in" => some .within
  | _ => none

/-- Products. -/
def readProduct (inner : Reader Expr) (count : Nat) : Reader Expr := do
  let first ← readUnary inner count
  readChain productOp? (readUnary inner count) count first

/-- Sums. -/
def readSum (inner : Reader Expr) (count : Nat) : Reader Expr := do
  let first ← readProduct inner count
  readChain sumOp? (readProduct inner count) count first

/-- Relations. -/
def readRelation (inner : Reader Expr) (count : Nat) : Reader Expr := do
  let first ← readSum inner count
  readChain relationOp? (readSum inner count) count first

/-- Operands joined by one logical symbol, grouped to the left. -/
def readLogical (s : String) (join : Expr → Expr → Expr)
    (operand : Reader Expr) : Nat → Expr → Reader Expr
  | 0, left => pure left
  | count + 1, left => do
    if ← Reader.accept s then
      let right ← operand
      readLogical s join operand count (join left right)
    else pure left

/-- Conjunctions. -/
def readConjunction (inner : Reader Expr) (count : Nat) : Reader Expr := do
  let first ← readRelation inner count
  readLogical "&&" and (readRelation inner count) count first

/-- Disjunctions. -/
def readDisjunction (inner : Reader Expr) (count : Nat) : Reader Expr := do
  let first ← readConjunction inner count
  readLogical "||" or (readConjunction inner count) count first

/-- **An expression** of at most `count` nested parts. -/
def read : Nat → Reader Expr
  | 0 => Reader.fail
  | count + 1 => do
    let condition ← readDisjunction (read count) count
    if ← Reader.accept "?" then
      let yes ← readDisjunction (read count) count
      Reader.symbol ":"
      let no ← read count
      pure (choice condition yes no)
    else pure condition

/-- **The expression of a text**, if the whole text is one. -/
def parse? (text : String) : Option Expr := do
  let tokens ← tokenize? text
  match ← read (tokens.length + 1) tokens with
  | (e, []) => some e
  | (_, _ :: _) => none

end Expr

end Entitlement.Condition
