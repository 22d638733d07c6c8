import Entitlement.Attribute
import Entitlement.Schema.Basic
import Entitlement.Tuple

/-!
# What a schema admits

A tuple is admitted by a schema that declares the relation it is on and
its sort of subjects as a target of the relation. An attribute is admitted
if it is declared and its value is of the declared type.
-/

namespace Entitlement

/-! ## Tuples -/

/-- **Why a schema does not admit a tuple.** -/
inductive RelationshipFault
  | undeclaredEntity (entityType : String)
  | undeclaredRelation (relation entityType : String)
  /-- The subject is of no sort that the relation admits. -/
  | subjectNotAllowed (subject : SubjectType) (entityType relation : String)
  deriving DecidableEq, Repr

/-- The wording of a fault. -/
def RelationshipFault.message : RelationshipFault → String
  | undeclaredEntity entityType =>
    s!"entity type '{entityType}' is not declared"
  | undeclaredRelation relation entityType =>
    s!"relation '{relation}' is not declared on '{entityType}'"
  | subjectNotAllowed subject entityType relation =>
    s!"subject '{subject.render}' is not allowed on {entityType}#{relation}"

/-- The sort of subjects that the subject of a tuple is of. -/
def Tuple.subjectSort (t : Tuple) : SubjectType :=
  ⟨t.subjectType, t.normalize.subjectRelation⟩

/-- **Why a tuple is not admitted**, if it is not. -/
def Schema.relationshipFault? (s : Schema) (t : Tuple) :
    Option RelationshipFault :=
  match s.entity? t.entityType with
  | none => some (.undeclaredEntity t.entityType)
  | some entity =>
    match entity.relation? t.relation with
    | none => some (.undeclaredRelation t.relation t.entityType)
    | some relation =>
      if relation.admits t.subjectSort then none
      else some (.subjectNotAllowed t.subjectSort t.entityType t.relation)

/-! ## Attributes -/

/-- **Why a schema does not admit an attribute.** -/
inductive AttributeFault
  | undeclaredEntity
  | undeclaredAttribute
  /-- The value is not of the declared type. -/
  | wrongType (declared : AttributeType)
  deriving DecidableEq, Repr

/-- The wording of a fault. -/
def AttributeFault.message : AttributeFault → String
  | undeclaredEntity => "entity type is not declared"
  | undeclaredAttribute => "attribute is not declared"
  | wrongType declared =>
    s!"value does not match declared type {declared.spelling}"

/-- **Why an attribute is not admitted**, if it is not. -/
def Schema.attributeFault? (s : Schema) (a : Attribute AttributeValue) :
    Option AttributeFault :=
  match s.entity? a.entityType with
  | none => some .undeclaredEntity
  | some entity =>
    match entity.attribute? a.name with
    | none => some .undeclaredAttribute
    | some declared =>
      if a.value.conformsTo declared.type then none
      else some (.wrongType declared.type)

end Entitlement
