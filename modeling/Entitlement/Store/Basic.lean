import Entitlement.Attribute
import Entitlement.Store.Error
import Entitlement.Tuple

/-!
# The store

A `Store` keeps for every tenant the versions of its schema, its tuples
and the attributes of its entities. A tenant that nothing was written for
has none of them.

* A version of a schema is written once. The newest version is the one
  written last by the clock, and of two written at one time the one with
  the greater name.
* Tuples form a set and are read in ascending order. A batch is written as
  a whole or not at all, and a deletion has to say what to delete.
* An attribute has one value, the one written last. A batch of attributes
  is written as a whole or not at all.

Identifiers are not empty and at most `maxIdentifierLength` bytes long.

What is kept is in order at all times. Hash sets that are sorted when they
are read, and trees in which deletions leave something behind, would reply
the same (`Entitlement.Proofs.Store.Memory`).
-/

namespace Entitlement

/-! ## What is kept for a tenant -/

/-- A version of a schema as it is stored, with the time it was written
at. -/
structure StoredSchema where
  version : String
  source : String
  createdAt : Int
  deriving DecidableEq, Repr

namespace StoredSchema

/-- **Whether a version is newer than another**, by its time and then by
its name. -/
def isNewer (a b : StoredSchema) : Bool :=
  b.createdAt < a.createdAt ||
    (a.createdAt == b.createdAt && b.version < a.version)

/-- The newest of some versions. -/
def newest? : List StoredSchema → Option StoredSchema
  | [] => none
  | s :: rest =>
    match newest? rest with
    | none => some s
    | some t => some (if t.isNewer s then t else s)

/-- Versions with the newest first. -/
def newestFirst (schemas : List StoredSchema) : List StoredSchema :=
  schemas.mergeSort fun a b => !b.isNewer a

end StoredSchema

/-- What stored attributes are ordered by. -/
def Attribute.sortKey {α : Type} (a : Attribute α) : List String :=
  [a.entityType, a.entityId, a.name]

/-- Whether an attribute belongs to an entity. -/
def Attribute.isOf {α : Type} (e : EntityRef) (a : Attribute α) : Bool :=
  a.entityType == e.type && a.entityId == e.id

/-- **What is kept for a tenant**: versions in the order they were written
in, and tuples and attributes in ascending order. -/
structure TenantData where
  schemas : List StoredSchema := []
  tuples : List Tuple := []
  attributes : List (Attribute Json) := []

/-! ## Checks before writing -/

/-- Refuses an identifier that is empty or too long. -/
def checkIdentifier (field value : String) : Except StoreError Unit :=
  if value.isEmpty then .error (.emptyField field)
  else if maxIdentifierLength < value.utf8ByteSize then
    .error (.longField field)
  else .ok ()

/-- **Refuses the first identifier that is empty or too long** of those
given with their names. -/
def checkIdentifiers : List (String × String) → Except StoreError Unit
  | [] => .ok ()
  | (field, value) :: rest => do
    checkIdentifier field value
    checkIdentifiers rest

/-- Refuses a tuple with an identifier that is empty or too long. -/
def Tuple.checkFields (t : Tuple) : Except StoreError Unit :=
  checkIdentifiers <|
    [("entity_type", t.entityType), ("entity_id", t.entityId),
      ("relation", t.relation), ("subject_type", t.subjectType),
      ("subject_id", t.subjectId)] ++
      t.subjectRelation.toList.map fun r => ("subject_relation", r)

/-- Refuses an attribute with an identifier that is empty or too long, or
without a value. -/
def Attribute.checkFields (a : Attribute Json) : Except StoreError Unit := do
  checkIdentifiers [("entity_type", a.entityType), ("entity_id", a.entityId),
    ("name", a.name)]
  if a.value.isNull then throw (.nullAttribute a.name)

/-! ## Operations -/

/-- **A store.** -/
structure Store where
  tenants : Table TenantData := []

namespace Store

/-- What is kept for a tenant. -/
def tenant (s : Store) (name : String) : TenantData :=
  (s.tenants.find? name).getD {}

/-- The store with other data for a tenant. -/
def setTenant (s : Store) (name : String) (data : TenantData) : Store :=
  ⟨s.tenants.insert name data⟩

@[simp] theorem tenant_setTenant_self (s : Store) (name : String)
    (data : TenantData) : (s.setTenant name data).tenant name = data := by
  simp [tenant, setTenant]

/-- What is kept for other tenants stays. -/
theorem tenant_setTenant_of_ne (s : Store) {name other : String}
    (data : TenantData) (h : other ≠ name) :
    (s.setTenant name data).tenant other = s.tenant other := by
  simp [tenant, setTenant, Table.find?_insert_of_ne _ _ h]

/-- Refuses a tenant whose name is empty or too long. -/
def checkTenant (tenant : String) : Except StoreError Unit :=
  checkIdentifier "tenant_id" tenant

/-! ### Schemas -/

/-- **Writes a version of a schema.** -/
def writeSchema (s : Store) (tenant : String) (schema : StoredSchema) :
    Except StoreError Store := do
  checkTenant tenant
  checkIdentifier "version" schema.version
  let data := s.tenant tenant
  if data.schemas.any fun t => t.version == schema.version then
    throw (.versionExists tenant schema.version)
  pure (s.setTenant tenant { data with schemas := data.schemas ++ [schema] })

/-- A version of a schema. -/
def readSchema (s : Store) (tenant version : String) :
    Except StoreError StoredSchema :=
  match (s.tenant tenant).schemas.find? fun t => t.version == version with
  | some schema => .ok schema
  | none => .error (.schemaNotFound tenant (some version))

/-- **The newest version of a schema.** -/
def latestSchema (s : Store) (tenant : String) :
    Except StoreError StoredSchema :=
  match StoredSchema.newest? (s.tenant tenant).schemas with
  | some schema => .ok schema
  | none => .error (.schemaNotFound tenant none)

/-- The names of the versions, newest first. -/
def schemaVersions (s : Store) (tenant : String) : List String :=
  (StoredSchema.newestFirst (s.tenant tenant).schemas).map StoredSchema.version

/-! ### Tuples -/

/-- **Writes a batch of tuples**; those that are there already stay. -/
def writeTuples (s : Store) (tenant : String) (tuples : List Tuple) :
    Except StoreError Store := do
  checkTenant tenant
  tuples.forM Tuple.checkFields
  let data := s.tenant tenant
  let tuples := insertAllBy Tuple.sortKey data.tuples tuples
  pure (s.setTenant tenant { data with tuples })

/-- **Deletes the tuples that a filter admits** and counts them. -/
def deleteTuples (s : Store) (tenant : String) (filter : TupleFilter) :
    Except StoreError (Nat × Store) := do
  checkTenant tenant
  if filter.isEmpty then throw .emptyFilter
  let data := s.tenant tenant
  let (removed, tuples) := data.tuples.partition filter.admits
  pure (removed.length, s.setTenant tenant { data with tuples })

/-- The tuples that a filter admits, in ascending order. -/
def readTuples (s : Store) (tenant : String) (filter : TupleFilter) :
    List Tuple :=
  (s.tenant tenant).tuples.filter filter.admits

/-! ### Attributes -/

/-- **Writes a batch of attributes** over what they had before. -/
def writeAttributes (s : Store) (tenant : String)
    (attributes : List (Attribute Json)) : Except StoreError Store := do
  checkTenant tenant
  attributes.forM Attribute.checkFields
  let data := s.tenant tenant
  let attributes := insertAllBy Attribute.sortKey data.attributes attributes
  pure (s.setTenant tenant { data with attributes })

/-- **Deletes an attribute of an entity**, or all of them if none is named,
and counts them. -/
def deleteAttributes (s : Store) (tenant : String) (entity : EntityRef)
    (name : Option String) : Nat × Store :=
  let data := s.tenant tenant
  let (removed, attributes) := data.attributes.partition fun a =>
    a.isOf entity && agrees name a.name
  (removed.length, s.setTenant tenant { data with attributes })

/-- The attributes of an entity in the order of their names. -/
def readAttributes (s : Store) (tenant : String) (entity : EntityRef) :
    List (Attribute Json) :=
  (s.tenant tenant).attributes.filter (Attribute.isOf entity)

end Store

end Entitlement
