/-!
# Schema documents

A schema document is what a schema text says: its rules and its entity
types in the order of their declaration. Documents carry no places, so
two texts that differ only in layout have the same document. Nothing here
is checked: a document may declare a name twice or refer to what it does
not declare, which `Entitlement.Schema.Validation` finds out.
-/

namespace Entitlement

/-- The two connectives of permission expressions. -/
inductive Connective
  | or | and
  deriving DecidableEq, Repr

/-- The word a connective is written with. -/
def Connective.spelling : Connective → String
  | .or => "or"
  | .and => "and"

/-- **A permission expression**: who holds a permission. -/
inductive PermissionExpr
  /-- The holders of a relation or permission of the same entity. -/
  | name (name : String)
  /-- The holders of a permission or relation on each entity that a
  relation leads to. -/
  | member (relation permission : String)
  /-- Whoever satisfies a declared rule. -/
  | call (rule : String) (arguments : List String)
  /-- Whoever satisfies an expression written on the spot. -/
  | inline (expression : String)
  | not (operand : PermissionExpr)
  | binary (op : Connective) (left right : PermissionExpr)
  deriving DecidableEq, Repr, Inhabited

/-- A subject type that a relation admits: the entities of a type, or with
a relation the holders of that relation on them. -/
structure TargetDecl where
  entity : String
  relation : Option String
  deriving DecidableEq, Repr

/-- A relation and the subjects it admits. -/
structure RelationDecl where
  name : String
  targets : List TargetDecl
  deriving DecidableEq, Repr

/-- An attribute with its type as written. -/
structure AttributeDecl where
  name : String
  typeName : String
  isArray : Bool
  deriving DecidableEq, Repr

/-- A permission and its expression. -/
structure PermissionDecl where
  name : String
  expr : PermissionExpr
  deriving DecidableEq, Repr

/-- A named rule; its body is an expression kept as written. -/
structure RuleDecl where
  name : String
  parameters : List String
  body : String
  deriving DecidableEq, Repr

/-- An entity type. -/
structure EntityDecl where
  name : String
  relations : List RelationDecl := []
  attributes : List AttributeDecl := []
  permissions : List PermissionDecl := []
  deriving DecidableEq, Repr

/-- **A schema document.** -/
structure Document where
  rules : List RuleDecl := []
  entities : List EntityDecl := []
  deriving DecidableEq, Repr

namespace EntityDecl

/-- The first relation declared under a name. -/
def relation? (e : EntityDecl) (name : String) : Option RelationDecl :=
  e.relations.find? fun r => r.name == name

/-- Whether a permission of that name is declared. -/
def hasPermission (e : EntityDecl) (name : String) : Bool :=
  e.permissions.any fun p => p.name == name

/-- Whether an attribute of that name is declared. -/
def hasAttribute (e : EntityDecl) (name : String) : Bool :=
  e.attributes.any fun a => a.name == name

/-- Whether a relation or a permission of that name is declared. -/
def hasRelationOrPermission (e : EntityDecl) (name : String) : Bool :=
  (e.relation? name).isSome || e.hasPermission name

end EntityDecl

namespace Document

/-- The first entity type declared under a name. -/
def entity? (d : Document) (name : String) : Option EntityDecl :=
  d.entities.find? fun e => e.name == name

/-- The first rule declared under a name. -/
def rule? (d : Document) (name : String) : Option RuleDecl :=
  d.rules.find? fun r => r.name == name

end Document

end Entitlement
