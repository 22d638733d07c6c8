import Entitlement.Condition.Conversion
import Entitlement.Condition.Expr

/-!
# The value of a condition

`Expr.value` calculates an expression from the values of its variables. A
fault in a part that is calculated is a fault of the whole, and the parts
that a decided `||`, `&&` or choice does not need are not calculated.

`a || b` is `a` itself if that counts as true, and otherwise `b`, so it
need not be a truth value; `a && b` always is one. `exists` and `all`
repeat these two over a list and stop as soon as they are decided.

Of the arguments of a call only those are calculated that the function
asks for, except that the first of one or two always is.
-/

namespace Entitlement.Condition

/-! ## Parts of values -/

/-- Whether the first list occurs in the second. -/
def occursIn (part : List Char) : List Char → Bool
  | [] => part.isEmpty
  | c :: cs => part.isPrefixOf (c :: cs) || occursIn part cs

/-- Whether the first list of bytes occurs in the second. -/
def bytesOccurIn (part : List UInt8) : List UInt8 → Bool
  | [] => part.isEmpty
  | b :: bs => part.isPrefixOf (b :: bs) || bytesOccurIn part bs

/-- The character of one byte that starts behind `offset` bytes of a
text. -/
def asciiAt? : Nat → List Char → Option Char
  | _, [] => none
  | 0, c :: _ => if c.utf8Size = 1 then some c else none
  | offset + 1, c :: cs =>
    if c.utf8Size ≤ offset + 1 then asciiAt? (offset + 1 - c.utf8Size) cs
    else none

namespace Value

/-- The value of a key of a map; a whole number also finds the key of the
other sort with the same value. -/
def lookupKey (entries : List (Key × Value)) (key : Key) : Option Value :=
  match valueOf? entries key with
  | some v => some v
  | none =>
    match key with
    | .int n =>
      if 0 ≤ n.toInt then valueOf? entries (.uint (UInt64.ofNat n.toInt.toNat))
      else none
    | .uint n =>
      if n.toNat < 0x8000000000000000 then
        valueOf? entries (.int (Int64.ofNat n.toNat))
      else none
    | _ => none

/-- **The value at an index**; null where there is none. Texts are indexed
by bytes. -/
def atIndex : Value → Value → Result Value
  | list _ items, int n =>
    .ok (if n.toInt < 0 then null else (items[n.toInt.toNat]?).getD null)
  | string s, int n =>
    .ok <| if n.toInt < 0 then null
      else match asciiAt? n.toInt.toNat s.toList with
        | some c => string (String.singleton c)
        | none => null
  | map _ entries, i =>
    match i.toKey? with
    | some key => .ok ((lookupKey entries key).getD null)
    | none => .error .unsupportedIndex
  | _, _ => .error .unsupportedIndex

/-- **Whether a value is in another**: a text in a text, an item in a
list, a key in a map. -/
def isWithin : Value → Value → Result Value
  | string a, string b => .ok (bool (occursIn a.toList b.toList))
  | v, list _ items => .ok (bool (items.any fun i => i.equals v))
  | v, map _ entries =>
    match v.toKey? with
    | some key => .ok (bool (valueOf? entries key).isSome)
    | none => .ok (bool false)
  | _, _ => .error .notComparable

/-- A comparison of two values that have an order. -/
def ordered (a b : Value) (test : Ordering → Bool) : Result Value :=
  match a.compare? b with
  | some o => .ok (bool (test o))
  | none => .error .notComparable

/-- An entry added to a map; an earlier value of the key is overwritten. -/
def addEntry (entries : List (Key × Value)) (key : Key) (v : Value) :
    List (Key × Value) :=
  (key, v) :: entries.filter fun e => e.1 != key

end Value

/-- The value of an operator at two values, calculated at a place. -/
def BinaryOp.apply (op : BinaryOp) (place : Place) (a b : Value) :
    Result Value :=
  match op with
  | less => a.ordered b fun o => o = .lt
  | lessEqual => a.ordered b fun o => o ≠ .gt
  | greater => a.ordered b fun o => o = .gt
  | greaterEqual => a.ordered b fun o => o ≠ .lt
  | equal => .ok (.bool (a.equals b))
  | notEqual => .ok (.bool !(a.equals b))
  | within => a.isWithin b
  | add => a.add place b
  | subtract => a.subtract b
  | multiply => a.multiply b
  | divide => a.divide b
  | remainder => a.remainder b

/-! ## Functions -/

/-- The names of the built-in functions. Of them `matches` can be named but
not called. -/
def functionNames : List String :=
  ["contains", "size", "max", "min", "startsWith", "endsWith", "string",
    "bytes", "double", "int", "uint", "matches", "duration", "timestamp",
    "getFullYear", "getMonth", "getDayOfYear", "getDayOfMonth", "getDate",
    "getDayOfWeek", "getHours", "getMinutes", "getSeconds", "getMilliseconds"]

/-- The number of items, entries or bytes of a value. -/
def sizeOf? : Value → Result Value
  | .list _ items => .ok (.int (Int64.ofNat items.length))
  | .map _ entries => .ok (.int (Int64.ofNat entries.length))
  | .string s => .ok (.int (Int64.ofNat s.utf8ByteSize))
  | .bytes bs => .ok (.int (Int64.ofNat bs.length))
  | _ => .error .invalidArgument

/-- Whether a value contains another: an item, a key or a part. -/
def contains : Value → Value → Result Value
  | .list _ items, v => .ok (.bool (items.any fun i => i.equals v))
  | .map _ entries, v =>
    match v.toKey? with
    | some key => .ok (.bool (Value.valueOf? entries key).isSome)
    | none => .error .unsupportedKey
  | .string s, .string part => .ok (.bool (occursIn part.toList s.toList))
  | .bytes bs, .bytes part => .ok (.bool (bytesOccurIn part bs))
  | _, _ => .ok (.bool false)

/-- The values among which `max` and `min` choose: those of a list that is
the only argument, or the arguments. -/
def choices : List Value → List Value
  | [.list _ items] => items
  | arguments => arguments

/-- The value of a list that an order prefers; of equal ones the last. -/
def extreme (keeps : Ordering) : List Value → Result Value
  | [] => .ok .null
  | first :: rest =>
    rest.foldlM
      (fun best v =>
        match best.compare? v with
        | some o => .ok (if o = keeps then best else v)
        | none => .error .notComparable)
      first

/-- An argument at a place. -/
def argument (arguments : List (Result Value)) (i : Nat) : Result Value :=
  match arguments[i]? with
  | some v => v
  | none => .error .missingArgument

/-- The fault of the arguments that a call calculates before anything
else: the first of one or two. -/
def checkFirst : List (Result Value) → Result Unit
  | [first] | [first, _] => do
    let _ ← first
    pure ()
  | _ => pure ()

/-- A test of one text against another. -/
def textTest (test : List Char → List Char → Bool) :
    Value → Value → Result Value
  | .string s, .string t => .ok (.bool (test s.toList t.toList))
  | _, _ => .error .invalidArgument

/-- A number of a timestamp. -/
def timestampPart (name : String) : Value → Result Value
  | .timestamp t =>
    match t.part? name with
    | some n => .ok (.int (Int64.ofInt n))
    | none => .error .invalidArgument
  | _ => .error .invalidArgument

/-- **A function at its arguments**, `subject` the first of those that a
target can stand for. Arguments that a function does not ask for do not
matter. -/
def applyFunction (name : String) (subject : Result Value)
    (others arguments : List (Result Value)) : Result Value :=
  match name with
  | "size" => subject.bind sizeOf?
  | "contains" => do contains (← subject) (← argument others 0)
  | "startsWith" => do
    textTest (fun s t => t.isPrefixOf s) (← subject) (← argument others 0)
  | "endsWith" => do
    textTest (fun s t => t.isSuffixOf s) (← subject) (← argument others 0)
  | "string" => subject.bind Value.toText
  | "int" => subject.bind Value.toInt
  | "uint" => subject.bind Value.toUInt
  | "double" => subject.bind Value.toDouble
  | "bytes" => (argument arguments 0).bind Value.toBytes
  | "duration" => (argument arguments 0).bind Value.toDuration
  | "timestamp" => (argument arguments 0).bind Value.toTimestamp
  | "max" => do extreme .gt (choices (← arguments.mapM id))
  | "min" => do extreme .lt (choices (← arguments.mapM id))
  | _ =>
    if functionNames.contains name then subject.bind (timestampPart name)
    else .error (.unknownFunction name)

/-! ## Variables -/

/-- The values of variables; the first of a name counts. -/
abbrev Scope := List (String × Value)

/-- The member of a value. A name of a function that is no key of a map is
that function. -/
def memberOf (v : Value) (name : String) : Result Value :=
  let found := match v with
    | .map _ entries => Value.valueOf? entries (.string name)
    | _ => none
  match found with
  | some w => .ok w
  | none =>
    if functionNames.contains name then .ok (.function name v)
    else .error (.noSuchMember name)

/-- Whether a value is a map with a key. -/
def hasMember (v : Value) (name : String) : Bool :=
  match v with
  | .map _ entries => (Value.valueOf? entries (.string name)).isSome
  | _ => false

/-- The items that a quantifier runs over, with the number of each; those
of a map are its keys. -/
def roundsOf : Value → Result (List (Value × Nat))
  | .list _ items => .ok items.zipIdx
  | .map _ entries => .ok (entries.map fun e => e.1.toValue).zipIdx
  | _ => .error .notIterable

/-! ## Quantifiers -/

/-- A test of the items of a list, each with its number. -/
abbrev Test := Value × Nat → Result Value

/-- `all` over the items left to look at, so far undecided. -/
def forAll (test : Test) : List (Value × Nat) → Result Value
  | [] => .ok (.bool true)
  | v :: rest => do
    if (← test v).isTruthy then forAll test rest else pure (.bool false)

/-- `exists` over the items left to look at; `last` is what the items
before came to. -/
def firstTruthy (test : Test) (last : Value) :
    List (Value × Nat) → Result Value
  | [] => .ok last
  | v :: rest => do
    let w ← test v
    if w.isTruthy then pure w else firstTruthy test w rest

/-- The items whose value under a test counts as true. -/
def satisfying (test : Test) (rounds : List (Value × Nat)) :
    Result (List Value) := do
  let kept ← rounds.filterM fun v => Value.isTruthy <$> test v
  pure (kept.map Prod.fst)

/-- The value of a quantifier at a place. -/
def Quantifier.apply (q : Quantifier) (place : Place) (body : Test)
    (rounds : List (Value × Nat)) : Result Value :=
  match q with
  | all => forAll body rounds
  | .exists => firstTruthy body (.bool false) rounds
  | existsOne => do
    let found ← satisfying body rounds
    pure (.bool (found.length == 1))
  | filter => Value.list (some place) <$> satisfying body rounds
  | map => Value.list (some place) <$> rounds.mapM body

/-! ## Expressions -/

namespace Expr

mutual

/-- **The value of an expression** that stands at a place. A part has the
place of the whole with its number before it, and the body of a quantifier
has the number of the round before that. -/
def value (scope : Scope) (place : Place) : Expr → Result Value
  | literal v => .ok v
  | ident name =>
    match scope.lookup name with
    | some v => .ok v
    | none => .error (.unknownVariable name)
  | member e name => do memberOf (← e.value scope (0 :: place)) name
  | has e name => do
    pure (.bool (hasMember (← e.value scope (0 :: place)) name))
  | index e i => do
    let v ← e.value scope (0 :: place)
    v.atIndex (← i.value scope (1 :: place))
  | call name arguments => do
    let vs := values scope place 0 arguments
    checkFirst vs
    applyFunction name (argument vs 0) vs.tail vs
  | method target name arguments => do
    let vs := values scope place 1 arguments
    checkFirst vs
    let v ← target.value scope (0 :: place)
    applyFunction name (.ok v) vs vs
  | not e => do pure (.bool !(← e.value scope (0 :: place)).isTruthy)
  | negate e => do (← e.value scope (0 :: place)).negate
  | or a b => do
    let v ← a.value scope (0 :: place)
    if v.isTruthy then pure v else b.value scope (1 :: place)
  | and a b => do
    if (← a.value scope (0 :: place)).isTruthy then
      pure (.bool (← b.value scope (1 :: place)).isTruthy)
    else pure (.bool false)
  | choice c yes no => do
    if (← c.value scope (0 :: place)).isTruthy then
      yes.value scope (1 :: place)
    else no.value scope (2 :: place)
  | binary op a b => do
    let v ← a.value scope (0 :: place)
    op.apply place v (← b.value scope (1 :: place))
  | list items => do
    pure (.list (some place) (← (values scope place 0 items).mapM id))
  | map entries => do
    pure (.map (some place) (← entryValues scope place 0 [] entries))
  | quantified q range name body => do
    let rounds ← roundsOf (← range.value scope (0 :: place))
    q.apply place
      (fun (v, i) => body.value ((name, v) :: scope) (i :: 1 :: place)) rounds
  | mapWhere range name condition body => do
    let rounds ← roundsOf (← range.value scope (0 :: place))
    let vs ← rounds.filterMapM fun (v, i) => do
      let scope := (name, v) :: scope
      if (← condition.value scope (i :: 1 :: place)).isTruthy then
        some <$> body.value scope (i :: 2 :: place)
      else pure none
    pure (.list (some place) vs)

/-- The values of expressions, each on its own; the first is part number
`i` of what stands at the place. -/
def values (scope : Scope) (place : Place) (i : Nat) :
    List Expr → List (Result Value)
  | [] => []
  | e :: rest => e.value scope (i :: place) :: values scope place (i + 1) rest

/-- The entries of a map; the last value of a key wins. -/
def entryValues (scope : Scope) (place : Place) (i : Nat)
    (base : List (Key × Value)) :
    List (Expr × Expr) → Result (List (Key × Value))
  | [] => .ok base
  | (k, e) :: rest => do
    match (← k.value scope (i :: place)).toKey? with
    | none => .error .unsupportedKey
    | some key =>
      let v ← e.value scope ((i + 1) :: place)
      entryValues scope place (i + 2) (Value.addEntry base key v) rest

end

end Expr

end Entitlement.Condition
