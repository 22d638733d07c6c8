import Entitlement.Schema.Document

/-!
# Schemas

A schema is what permission queries are answered against: the entity types
of a tenant with their relations, attributes and permissions, and the
rules they share, in one immutable version.

A permission is given by a `PermissionRule`. Rules are built from the
expressions of a document, but they also arrive as data, and then an `or`
or `and` may lack its right operand and a `not` may have one too many.
`PermissionRule` has a constructor for each of these shapes, so that the
others are complete by their type.
-/

namespace Entitlement

/-! ## Attribute types -/

/-- The types of single attribute values. -/
inductive ScalarType
  | string | int | bool | float
  deriving DecidableEq, Repr

namespace ScalarType

/-- How a scalar type is written. -/
def spelling : ScalarType → String
  | string => "string"
  | int => "int"
  | bool => "bool"
  | float => "float"

/-- The scalar type with a given spelling. -/
def ofSpelling? : String → Option ScalarType
  | "string" => some string
  | "int" => some int
  | "bool" => some bool
  | "float" => some float
  | _ => none

@[simp] theorem ofSpelling?_spelling (t : ScalarType) :
    ofSpelling? t.spelling = some t := by
  cases t <;> rfl

end ScalarType

/-- The type of an attribute: single values, or lists of them. -/
structure AttributeType where
  scalar : ScalarType
  isArray : Bool
  deriving DecidableEq, Repr

/-- How an attribute type is written. -/
def AttributeType.spelling (t : AttributeType) : String :=
  t.scalar.spelling ++ if t.isArray then "[]" else ""

/-! ## Permission rules -/

/-- **Who holds a permission**, as a tree. -/
inductive PermissionRule
  /-- The holders of a relation or permission of the same entity. -/
  | relation (name : String)
  | binary (op : Connective) (left right : PermissionRule)
  /-- A connective without its right operand. -/
  | incomplete (op : Connective) (left : PermissionRule)
  | not (operand : PermissionRule)
  /-- A negation with a right operand, which means nothing. -/
  | notWith (operand spare : PermissionRule)
  /-- The holders of a permission or relation on each entity that a
  relation leads to. -/
  | member (relation permission : String)
  /-- Whoever satisfies an expression. -/
  | inline (expression : String)
  /-- Whoever satisfies a rule of the schema. -/
  | call (rule : String) (arguments : List String)
  deriving DecidableEq, Repr, Inhabited

/-- The word for the sort of a rule. -/
def PermissionRule.kind : PermissionRule → String
  | relation _ => "relation"
  | binary .. | incomplete .. | not _ | notWith .. => "logical"
  | member .. => "hierarchical"
  | inline _ => "abac"
  | call .. => "rule_call"

/-! ## Entity types -/

/-- A sort of subjects: the entities of a type, or with a relation the
holders of that relation on them. -/
structure SubjectType where
  entityType : String
  relation : Option String
  deriving DecidableEq, Repr

/-- How a sort of subjects is written. -/
def SubjectType.render (t : SubjectType) : String :=
  match t.relation with
  | none => t.entityType
  | some relation => t.entityType ++ "#" ++ relation

/-- A relation and the subjects it admits. -/
structure Relation where
  name : String
  targets : List SubjectType
  deriving DecidableEq, Repr

namespace Relation

/-- The entity types whose entities a relation admits as they are. -/
def directTypes (r : Relation) : List String :=
  (r.targets.filter fun t => t.relation.isNone).map SubjectType.entityType

/-- Whether a relation admits a sort of subjects. -/
def admits (r : Relation) (subject : SubjectType) : Bool :=
  r.targets.contains subject

end Relation

/-- An attribute and its type. -/
structure AttributeDef where
  name : String
  type : AttributeType
  deriving DecidableEq, Repr

/-- A permission and who holds it. -/
structure Permission where
  name : String
  rule : PermissionRule
  deriving DecidableEq, Repr

/-- A named rule, an expression over the entity, the subject and the
request. -/
structure Rule where
  name : String
  parameters : List String
  body : String
  deriving DecidableEq, Repr

/-- An entity type. -/
structure EntityType where
  name : String
  relations : List Relation := []
  attributes : List AttributeDef := []
  permissions : List Permission := []
  deriving DecidableEq, Repr

namespace EntityType

/-- The first relation of a name. -/
def relation? (e : EntityType) (name : String) : Option Relation :=
  e.relations.find? fun r => r.name == name

/-- The first permission of a name. -/
def permission? (e : EntityType) (name : String) : Option Permission :=
  e.permissions.find? fun p => p.name == name

/-- The first attribute of a name. -/
def attribute? (e : EntityType) (name : String) : Option AttributeDef :=
  e.attributes.find? fun a => a.name == name

end EntityType

/-- **A version of a tenant's schema.** `source` is the text it was
compiled from, and the times are seconds since 1970. -/
structure Schema where
  tenant : String
  version : String
  source : String
  rules : List Rule
  entities : List EntityType
  createdAt : Int
  updatedAt : Int
  deriving DecidableEq, Repr

namespace Schema

/-- The first entity type of a name. -/
def entity? (s : Schema) (name : String) : Option EntityType :=
  s.entities.find? fun e => e.name == name

/-- The first rule of a name. -/
def rule? (s : Schema) (name : String) : Option Rule :=
  s.rules.find? fun r => r.name == name

/-- The permission of a name on the entity type of a name. -/
def permission? (s : Schema) (entityType permission : String) :
    Option Permission :=
  (s.entity? entityType).bind fun e => e.permission? permission

end Schema

end Entitlement
