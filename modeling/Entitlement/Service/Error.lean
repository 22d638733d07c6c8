import Entitlement.Failure
import Entitlement.Schema.Admission

/-!
# Errors of the service

What an operation of the service fails with: a failure of a query or of a
schema, an error of the store, or data that the latest schema does not
admit.
-/

namespace Entitlement

/-- **Why an operation has no answer.** -/
inductive ServiceError
  | failure (failure : Failure)
  | store (error : StoreError)
  /-- The latest schema does not admit a tuple. -/
  | invalidRelationship (tuple : Tuple) (fault : RelationshipFault)
  /-- The latest schema does not admit an attribute. -/
  | invalidAttribute (entity : EntityRef) (name : String) (fault : AttributeFault)
  deriving DecidableEq, Repr

namespace ServiceError

/-- The wording of an error. -/
def message : ServiceError → String
  | failure f => f.message
  | store e => e.message
  | invalidRelationship t fault =>
    s!"invalid relationship {t.render}: {fault.message}"
  | invalidAttribute e name fault =>
    s!"invalid attribute {e.type}:{e.id}.{name}: {fault.message}"

/-- **Whether an error means that something asked for does not exist.** -/
def isNotFound : ServiceError → Bool
  | failure f => f.isNotFound
  | store (.schemaNotFound ..) => true
  | _ => false

end ServiceError

end Entitlement
