import Entitlement.Attribute
import Entitlement.Failure
import Entitlement.Text.Blank
import Entitlement.Tuple

/-!
# Permission queries

What can be asked: whether a subject holds a permission on an entity,
which of several permissions it holds, who is behind a permission, and on
which entities a subject, or which subjects on an entity, hold it. Every
query names a tenant and may name a version of its schema; without one,
or with an empty one, the latest is meant.

A query may bring tuples of its own, which hold for it alone, and a
context, which expressions see as `request`. The fields that say what is
asked must not be blank, and the first that is refuses the query.
-/

namespace Entitlement

/-! ## Required fields -/

/-- **Refuses a blank field**, the first one of those given with their
names. -/
def requireFields (fields : List (String × String)) : Except Failure Unit :=
  match fields.find? fun field => isBlankText field.2 with
  | none => .ok ()
  | some (name, _) => .error (.blankField name)

/-- Nothing is refused exactly if no field is blank. -/
theorem requireFields_eq_ok_iff {fields : List (String × String)} :
    requireFields fields = .ok () ↔
      ∀ field ∈ fields, isBlankText field.2 = false := by
  unfold requireFields
  split
  next h => simpa using h
  next name text h =>
    simp only [reduceCtorEq, false_iff]
    intro hall
    have := List.find?_some h
    simp [hall _ (List.mem_of_find?_eq_some h)] at this

/-- The version that is meant: an empty one is none. -/
def versionMeant (version : Option String) : Option String :=
  version.filter fun v => !v.isEmpty

/-! ## Queries -/

/-- **Does a subject hold a permission on an entity?** -/
structure CheckRequest where
  tenant : String
  version : Option String := none
  entity : EntityRef
  permission : String
  subject : EntityRef
  contextual : List Tuple := []
  context : Attributes := []

/-- Refuses a check with a blank field. -/
def CheckRequest.validate (r : CheckRequest) : Except Failure Unit :=
  requireFields [("tenant_id", r.tenant), ("entity_type", r.entity.type),
    ("entity_id", r.entity.id), ("permission", r.permission),
    ("subject_type", r.subject.type), ("subject_id", r.subject.id)]

/-- **Which permissions does a subject hold on an entity?** -/
structure SubjectPermissionRequest where
  tenant : String
  version : Option String := none
  entity : EntityRef
  subject : EntityRef
  contextual : List Tuple := []
  context : Attributes := []

namespace SubjectPermissionRequest

/-- Refuses a query with a blank field. -/
def validate (r : SubjectPermissionRequest) : Except Failure Unit :=
  requireFields [("tenant_id", r.tenant), ("entity_type", r.entity.type),
    ("entity_id", r.entity.id), ("subject_type", r.subject.type),
    ("subject_id", r.subject.id)]

/-- The check of one of the permissions. -/
def toCheck (r : SubjectPermissionRequest) (permission : String) :
    CheckRequest :=
  { r with permission }

end SubjectPermissionRequest

/-- **Who is behind a permission?** -/
structure ExpandRequest where
  tenant : String
  version : Option String := none
  entity : EntityRef
  permission : String

/-- Refuses an expansion with a blank field. -/
def ExpandRequest.validate (r : ExpandRequest) : Except Failure Unit :=
  requireFields [("tenant_id", r.tenant), ("entity_type", r.entity.type),
    ("entity_id", r.entity.id), ("permission", r.permission)]

/-- What part of a list of identifiers is asked for: at most `size` of
them, where zero leaves the size open, behind `token`. -/
structure PageRequest where
  size : Nat := 0
  token : Option String := none
  deriving DecidableEq, Repr

/-- **On which entities of a type does a subject hold a permission?** -/
structure LookupEntityRequest where
  tenant : String
  version : Option String := none
  entityType : String
  permission : String
  subject : EntityRef
  contextual : List Tuple := []
  context : Attributes := []
  page : PageRequest := {}

namespace LookupEntityRequest

/-- Refuses a lookup with a blank field. -/
def validate (r : LookupEntityRequest) : Except Failure Unit :=
  requireFields [("tenant_id", r.tenant), ("entity_type", r.entityType),
    ("permission", r.permission), ("subject_type", r.subject.type),
    ("subject_id", r.subject.id)]

/-- The check of one entity. -/
def toCheck (r : LookupEntityRequest) (id : String) : CheckRequest :=
  { r with entity := ⟨r.entityType, id⟩ }

end LookupEntityRequest

/-- **Which subjects of a type hold a permission on an entity?** -/
structure LookupSubjectRequest where
  tenant : String
  version : Option String := none
  entity : EntityRef
  permission : String
  subjectType : String
  contextual : List Tuple := []
  context : Attributes := []
  page : PageRequest := {}

namespace LookupSubjectRequest

/-- Refuses a lookup with a blank field. -/
def validate (r : LookupSubjectRequest) : Except Failure Unit :=
  requireFields [("tenant_id", r.tenant), ("entity_type", r.entity.type),
    ("entity_id", r.entity.id), ("permission", r.permission),
    ("subject_type", r.subjectType)]

/-- The check of one subject. -/
def toCheck (r : LookupSubjectRequest) (id : String) : CheckRequest :=
  { r with subject := ⟨r.subjectType, id⟩ }

end LookupSubjectRequest

end Entitlement
