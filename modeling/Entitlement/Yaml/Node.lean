import Entitlement.Number.Decimal

/-!
# YAML nodes

What a YAML text says: scalars, lists and mappings. A plain scalar is a
number, a truth value or null if it spells one, and else a text; one in
quotes is always a text. A tag says what a plain scalar is, and if it does
not spell that, it is `invalid`.
-/

namespace Entitlement.Yaml

/-- **A YAML node.** A number with a fraction is kept as it is spelled. -/
inductive Node
  | null
  /-- A scalar that is not what its tag says. -/
  | invalid
  | bool (b : Bool)
  | int (n : Int)
  | real (spelling : String)
  | text (s : String)
  | list (items : List Node)
  | mapping (entries : List (Node × Node))
  deriving Repr, BEq, Inhabited

/-! ## Whole numbers -/

/-- The value of digits of a base up to sixteen. -/
def radixMagnitude? (base : Nat) (ds : List Char) : Option Nat :=
  if ds.isEmpty then none
  else (ds.mapM fun d => (hexDigitValue? d).filter fun n => n < base).map
    fun ns => ns.foldl (fun n d => base * n + d) 0

/-- The value of digits of a base, with or without a sign. -/
def radixValue? (base : Nat) (cs : List Char) : Option Int :=
  match cs with
  | '-' :: ds => (radixMagnitude? base ds).map fun n => -(n : Int)
  | '+' :: ds => (radixMagnitude? base ds).map Int.ofNat
  | ds => (radixMagnitude? base ds).map Int.ofNat

/-- **The whole number that a plain scalar spells**, which has to fit in 64
bits with a sign. The digits behind `0x` and `0o` are hexadecimal and
octal and may have a sign of their own, as may those behind a plus. -/
def plainInt? (cs : List Char) : Option Int :=
  let n := match cs with
    | '0' :: 'x' :: ds => radixValue? 16 ds
    | '0' :: 'o' :: ds => radixValue? 8 ds
    | '+' :: ds => radixValue? 10 ds
    | cs => radixValue? 10 cs
  n.filter fitsInt64

/-! ## Scalars -/

/-- The words for doubles that are not finite, besides those that decimal
notation has. -/
def unboundedWords : List String :=
  [".inf", ".Inf", ".INF", "+.inf", "+.Inf", "+.INF", "-.inf", "-.Inf",
    "-.INF", ".nan", ".NAN"]

/-- Whether a plain scalar spells a number with a fraction. -/
def isReal (s : String) : Bool :=
  unboundedWords.contains s || (doubleOfText? s.toList).isSome

namespace Node

/-- **What a plain scalar stands for.** -/
def ofPlain (s : String) : Node :=
  if s = "~" ∨ s = "null" then null
  else if s = "true" then bool true
  else if s = "false" then bool false
  else
    match plainInt? s.toList with
    | some n => int n
    | none => if isReal s then real s else text s

/-- What begins the tags of YAML itself. -/
def standardTags : String := "tag:yaml.org,2002:"

/-- The plain scalar of a tag of YAML itself. -/
def ofStandard (sort s : String) : Node :=
  match sort with
  | "bool" =>
    if s = "true" then bool true
    else if s = "false" then bool false
    else invalid
  | "int" => (((intOfText? s.toList).filter fitsInt64).map int).getD invalid
  | "float" => if isReal s then real s else invalid
  | "null" => if s = "~" ∨ s = "null" then null else invalid
  | _ => text s

/-- **The node of a scalar**, with its tag if it has one. -/
def ofScalar (isPlain : Bool) (tag : Option (String × String))
    (s : String) : Node :=
  match isPlain, tag with
  | false, _ => text s
  | true, none => ofPlain s
  | true, some (start, sort) =>
    if start = standardTags then ofStandard sort s else text s

/-! ## Mappings -/

/-- Names and values in turn. What is invalid is no name, and what follows
it counts as the name. -/
def paired : List Node → List (Node × Node)
  | [] => []
  | invalid :: rest => paired rest
  | [_] => []
  | name :: value :: rest => (name, value) :: paired rest

/-- Whether no name occurs twice. -/
def distinctNames : List (Node × Node) → Bool
  | [] => true
  | (name, _) :: rest => !rest.any (·.1 == name) && distinctNames rest

/-- **The mapping of names and values in turn**, unless a name occurs
twice. -/
def ofParts? (parts : List Node) : Option Node :=
  let entries := paired parts
  if distinctNames entries then some (mapping entries) else none

end Node

example : plainInt? "0x+1F".toList = some 31 := by decide
example : plainInt? "++5".toList = some 5 := by decide

end Entitlement.Yaml
