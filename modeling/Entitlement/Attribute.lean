import Entitlement.Json.Basic
import Entitlement.Number.Decimal
import Entitlement.Schema.Basic

/-!
# Attribute values

Entities carry attributes, and requests carry a context of values of the
same sort. An `AttributeValue` is a truth value, a number, a text, a list
or a map; there is no null among them.

Attributes are stored as JSON. `AttributeValue.toJson` writes a value and
`AttributeValue.ofJson?` reads one. A number that is not finite has no
JSON number and is written as null, and JSON with a null anywhere in it is
not a value.
-/

namespace Entitlement

/-! ## Values -/

/-- **The value of an attribute.** The names of a map ascend. -/
inductive AttributeValue
  | bool (b : Bool)
  | int (n : Int64)
  | float (d : Double)
  | string (s : String)
  | list (items : List AttributeValue)
  | map (fields : List (String × AttributeValue))
  deriving Repr, BEq, Inhabited

/-- The values of the attributes of an entity by name, or the context of a
request. -/
abbrev Attributes := Table AttributeValue

namespace AttributeValue

/-- The value of a whole number: itself if it fits, or else the double
nearest to it. -/
def ofInt (n : Int) : AttributeValue :=
  if fitsInt64 n then int (Int64.ofInt n) else float (.ofInt n)

mutual

/-- **The value that JSON stands for**; none if it has a null in it. -/
def ofJson? : Json → Option AttributeValue
  | .null => none
  | .bool b => some (bool b)
  | .int n => some (ofInt n)
  | .double d => some (float d)
  | .string s => some (string s)
  | .array items => (ofItems? items).map list
  | .object fields => (ofFields? fields).map map

/-- The values of a list. -/
def ofItems? : List Json → Option (List AttributeValue)
  | [] => some []
  | j :: rest => do
    let v ← ofJson? j
    let vs ← ofItems? rest
    some (v :: vs)

/-- The values of named fields. -/
def ofFields? :
    List (String × Json) → Option (List (String × AttributeValue))
  | [] => some []
  | (name, j) :: rest => do
    let v ← ofJson? j
    let vs ← ofFields? rest
    some ((name, v) :: vs)

end

mutual

/-- **The JSON of a value**; a number that is not finite becomes null. -/
def toJson : AttributeValue → Json
  | bool b => .bool b
  | int n => .int n.toInt
  | float d => if d.isFinite then .double d else .null
  | string s => .string s
  | list items => .array (itemsToJson items)
  | map fields => .object (fieldsToJson fields)

/-- The JSON of a list of values. -/
def itemsToJson : List AttributeValue → List Json
  | [] => []
  | v :: rest => v.toJson :: itemsToJson rest

/-- The JSON of named values. -/
def fieldsToJson : List (String × AttributeValue) → List (String × Json)
  | [] => []
  | (name, v) :: rest => (name, v.toJson) :: fieldsToJson rest

end

/-- Whether a value is a single value of a scalar type. A whole number is
also a float. -/
def isScalar (t : ScalarType) : AttributeValue → Bool
  | bool _ => t = .bool
  | int _ => t = .int || t = .float
  | float _ => t = .float
  | string _ => t = .string
  | list _ | map _ => false

/-- **Whether a value is of a declared type.** -/
def conformsTo (v : AttributeValue) (t : AttributeType) : Bool :=
  if t.isArray then
    match v with
    | list items => items.all (isScalar t.scalar)
    | _ => false
  else v.isScalar t.scalar

end AttributeValue

/-! ## Attributes of entities -/

/-- One attribute of one entity. -/
structure Attribute (α : Type) where
  entityType : String
  entityId : String
  name : String
  value : α
  deriving Repr, BEq

namespace Attribute

/-- An attribute with its value as it is stored. -/
def toJson (a : Attribute AttributeValue) : Attribute Json :=
  { a with value := a.value.toJson }

end Attribute

end Entitlement
