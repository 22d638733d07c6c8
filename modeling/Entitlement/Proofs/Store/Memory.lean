import Entitlement.Proofs.Store.Collections
import Entitlement.Proofs.Store.Refinement

/-!
# A store in memory

The lists of a `Store` are in order at all times. A store in memory
(`MemoryStore`) puts in order what it is asked for. It has three tables, and
a tenant has an entry in each that something of the tenant was written to:
the versions of its schema as they were written, a hash set of its tuples,
and a tree of the attributes of its entities.

Nothing of this shows. A store in memory replies to all requests in a row,
for whatever tenants, as a `Store` does, whatever the hashes of tuples are
and whatever deletions have left behind (`MemoryStore.replies_eq_store`):
both follow the records of every tenant, and so both keep the same ledger.
-/

namespace Entitlement

open Outcome

/-! ## Entries by tenants -/

namespace TenantTable

variable {α : Type} {table : Std.HashMap String α} {tenant : String}

theorem getD_of_some {x : α} (hx : table[tenant]? = some x) (d : α) :
    table.getD tenant d = x := by
  rw [Std.HashMap.getD_eq_getD_getElem?, hx, Option.getD_some]

theorem getD_of_none (hx : table[tenant]? = none) (d : α) :
    table.getD tenant d = d := by
  rw [Std.HashMap.getD_eq_getD_getElem?, hx, Option.getD_none]

/-- What is looked for in the entry of a tenant is not there if there is no
entry. -/
theorem bind_eq_of_none {β : Type} {f : α → Option β} {d : α}
    (hd : f d = none) : table[tenant]?.bind f = f (table.getD tenant d) := by
  cases hentry : table[tenant]? with
  | none =>
    rw [getD_of_none hentry, hd]
    rfl
  | some x =>
    rw [getD_of_some hentry]
    rfl

/-- The entries of other tenants stay. -/
theorem getD_insert_of_ne {other : String} (h : other ≠ tenant) (x d : α) :
    (table.insert tenant x).getD other d = table.getD other d := by
  rw [Std.HashMap.getD_insert, if_neg]
  simpa using h.symm

end TenantTable

/-! ## The store -/

/-- **A store in memory**, with an entry for each tenant in every table that
something of the tenant was written to. -/
structure MemoryStore [Hashable Tuple] where
  schemas : Std.HashMap String (List StoredSchema) := ∅
  tuples : Std.HashMap String HashedTuples := ∅
  attributes : Std.HashMap String AttributeTree := ∅

namespace MemoryStore

open Store TenantTable

variable [Hashable Tuple]

/-- Writes a version of a schema. -/
def writeSchema (m : MemoryStore) (tenant : String) (schema : StoredSchema) :
    Except StoreError MemoryStore := do
  checkTenant tenant
  checkIdentifier "version" schema.version
  let versions := m.schemas.getD tenant []
  if versions.any fun t => t.version == schema.version then
    throw (.versionExists tenant schema.version)
  pure { m with schemas := m.schemas.insert tenant (versions ++ [schema]) }

/-- A version of a schema. -/
def readSchema (m : MemoryStore) (tenant version : String) :
    Except StoreError StoredSchema :=
  match m.schemas[tenant]?.bind (·.find? fun t => t.version == version) with
  | some schema => .ok schema
  | none => .error (.schemaNotFound tenant (some version))

/-- The newest version of a schema. -/
def latestSchema (m : MemoryStore) (tenant : String) :
    Except StoreError StoredSchema :=
  match m.schemas[tenant]?.bind StoredSchema.newest? with
  | some schema => .ok schema
  | none => .error (.schemaNotFound tenant none)

/-- The names of the versions, newest first. -/
def schemaVersions (m : MemoryStore) (tenant : String) : List String :=
  (StoredSchema.newestFirst (m.schemas.getD tenant [])).map
    StoredSchema.version

/-- Writes a batch of tuples. -/
def writeTuples (m : MemoryStore) (tenant : String) (tuples : List Tuple) :
    Except StoreError MemoryStore := do
  checkTenant tenant
  tuples.forM Tuple.checkFields
  let stored := (m.tuples.getD tenant ∅).insertMany tuples
  pure { m with tuples := m.tuples.insert tenant stored }

/-- **Deletes the tuples that a filter admits** and counts by how many the
set shrinks. -/
def deleteTuples (m : MemoryStore) (tenant : String) (filter : TupleFilter) :
    Except StoreError (Nat × MemoryStore) := do
  checkTenant tenant
  if filter.isEmpty then throw .emptyFilter
  match m.tuples[tenant]? with
  | none => pure (0, m)
  | some stored =>
    let left := stored.without filter
    pure (stored.size - left.size,
      { m with tuples := m.tuples.insert tenant left })

/-- The tuples that a filter admits. -/
def readTuples (m : MemoryStore) (tenant : String) (filter : TupleFilter) :
    List Tuple :=
  match m.tuples[tenant]? with
  | none => []
  | some stored => stored.read filter

theorem readTuples_eq (m : MemoryStore) (tenant : String)
    (filter : TupleFilter) :
    m.readTuples tenant filter = (m.tuples.getD tenant ∅).read filter := by
  unfold readTuples
  cases hentry : m.tuples[tenant]? with
  | none =>
    rw [getD_of_none hentry]
    simp [HashedTuples.read, Tuple.sort]
  | some stored => rw [getD_of_some hentry]

/-- Writes a batch of attributes. -/
def writeAttributes (m : MemoryStore) (tenant : String)
    (attributes : List (Attribute Json)) : Except StoreError MemoryStore := do
  checkTenant tenant
  attributes.forM Attribute.checkFields
  let tree := attributes.foldl AttributeTree.write
    (m.attributes.getD tenant ∅)
  pure { m with attributes := m.attributes.insert tenant tree }

/-- Deletes an attribute of an entity, or all of them if none is named. -/
def deleteAttributes (m : MemoryStore) (tenant : String) (entity : EntityRef)
    (name : Option String) : Nat × MemoryStore :=
  match m.attributes[tenant]? with
  | none => (0, m)
  | some tree =>
    let (count, left) := tree.delete entity name
    (count, { m with attributes := m.attributes.insert tenant left })

/-- The attributes of an entity. -/
def readAttributes (m : MemoryStore) (tenant : String) (entity : EntityRef) :
    List (Attribute Json) :=
  match m.attributes[tenant]? with
  | none => []
  | some tree => tree.read entity

theorem readAttributes_eq (m : MemoryStore) (tenant : String)
    (entity : EntityRef) :
    m.readAttributes tenant entity
      = (m.attributes.getD tenant ∅).read entity := by
  unfold readAttributes
  cases hentry : m.attributes[tenant]? with
  | none =>
    rw [getD_of_none hentry]
    simp [AttributeTree.read]
  | some tree => rw [getD_of_some hentry]

/-- The reply of a store in memory to a request about a tenant, and the store
behind it. -/
def perform (m : MemoryStore) :
    String × Request → Except StoreError (Reply × MemoryStore)
  | (tenant, .writeSchema schema) => do
    let m' ← m.writeSchema tenant schema
    pure (.done, m')
  | (tenant, .readSchema version) => do
    let schema ← m.readSchema tenant version
    pure (.schema schema, m)
  | (tenant, .latestSchema) => do
    let schema ← m.latestSchema tenant
    pure (.schema schema, m)
  | (tenant, .schemaVersions) => pure (.versions (m.schemaVersions tenant), m)
  | (tenant, .writeTuples tuples) => do
    let m' ← m.writeTuples tenant tuples
    pure (.done, m')
  | (tenant, .deleteTuples filter) => do
    let (count, m') ← m.deleteTuples tenant filter
    pure (.removed count, m')
  | (tenant, .readTuples filter) =>
    pure (.tuples (m.readTuples tenant filter), m)
  | (tenant, .writeAttributes attributes) => do
    let m' ← m.writeAttributes tenant attributes
    pure (.done, m')
  | (tenant, .deleteAttributes entity name) =>
    let (count, m') := m.deleteAttributes tenant entity name
    pure (.removed count, m')
  | (tenant, .readAttributes entity) =>
    pure (.attributes (m.readAttributes tenant entity), m)

/-- **Whether a store in memory holds what is recorded for a tenant.** A
tenant without an entry has no records there. -/
structure Holds (m : MemoryStore) (tenant : String) (r : Records) :
    Prop where
  versions : m.schemas.getD tenant [] = r.versions
  tuples : (m.tuples.getD tenant ∅).Has r.tuples
  attributes : (m.attributes.getD tenant ∅).Has r.attributes

variable {m : MemoryStore} {tenant : String} {r : Records}

/-- A new store in memory has no records. -/
theorem holds_new (tenant : String) : Holds {} tenant {} where
  versions := Std.HashMap.getD_empty
  tuples t := by simp
  attributes key := by
    rw [Std.HashMap.getD_empty]
    exact AttributeTree.value?_eq_of_none Std.TreeMap.getElem?_emptyc _

/-! ### One entry at a time -/

section

variable (h : m.Holds tenant r)
include h

/-- To enter versions is to follow the records with the same versions. -/
theorem follows_insert_versions (r' : Records)
    (htuples : r'.tuples = r.tuples)
    (hattributes : r'.attributes = r.attributes) (reply : Reply) :
    Follows Holds m tenant
      (reply, { m with schemas := m.schemas.insert tenant r'.versions })
      (reply, r') where
  reply := rfl
  holds := {
    versions := Std.HashMap.getD_insert_self
    tuples := htuples ▸ h.tuples
    attributes := hattributes ▸ h.attributes }
  others _ hother _ hr :=
    { hr with versions := (getD_insert_of_ne hother _ _).trans hr.versions }

/-- To enter a set of tuples is to follow the records with that set. -/
theorem follows_insert_tuples {stored : HashedTuples} {set : Finset Tuple}
    (hstored : stored.Has set) (reply : Reply) :
    Follows Holds m tenant
      (reply, { m with tuples := m.tuples.insert tenant stored })
      (reply, { r with tuples := set }) where
  reply := rfl
  holds := {
    h with
    tuples := by
      rw [Std.HashMap.getD_insert_self]
      exact hstored }
  others _ hother _ hr := {
    hr with
    tuples := by
      simp only [getD_insert_of_ne hother]
      exact hr.tuples }

/-- To enter a tree of attributes is to follow the records with its
values. -/
theorem follows_insert_attributes {tree : AttributeTree}
    {values : AttributeValues} (htree : tree.Has values) (reply : Reply) :
    Follows Holds m tenant
      (reply, { m with attributes := m.attributes.insert tenant tree })
      (reply, { r with attributes := values }) where
  reply := rfl
  holds := {
    h with
    attributes := by
      rw [Std.HashMap.getD_insert_self]
      exact htree }
  others _ hother _ hr := {
    hr with
    attributes := by
      simp only [getD_insert_of_ne hother]
      exact hr.attributes }

/-! ### Requests

The checks before a write find the faults of what is written. What is behind
them is a change of one entry, or none if the tenant has no entry. -/

theorem follows_writeSchema (schema : StoredSchema) :
    Related (Follows Holds m tenant) (m.perform (tenant, .writeSchema schema))
      (r.perform tenant (.writeSchema schema)) := by
  simp only [perform, Records.perform, writeSchema, checkTenant_eq_refuse,
    checkIdentifier_eq_refuse, Option.orElse_eq_orElse, Option.orElse_eq_or,
    refuse_or, bind_assoc, h.versions]
  refine related_refuse (related_refuse ?_)
  have htaken : (r.versions.any fun t => t.version == schema.version) = true ↔
      schema.version ∈ r.versions.map StoredSchema.version := by
    simp
  by_cases hnew : schema.version ∈ r.versions.map StoredSchema.version
  · rw [if_pos (htaken.mpr hnew), dif_pos hnew]
    exact .error _
  · rw [if_neg (htaken.not.mpr hnew), dif_neg hnew]
    have hadded := follows_insert_versions h (r.addVersion schema hnew) rfl rfl
    exact .ok (hadded .done)

theorem follows_writeTuples (tuples : List Tuple) :
    Related (Follows Holds m tenant) (m.perform (tenant, .writeTuples tuples))
      (r.perform tenant (.writeTuples tuples)) := by
  simp only [perform, Records.perform, writeTuples, checkTenant_eq_refuse,
    forM_eq_refuse Tuple.checkFields_eq_refuse, Option.orElse_eq_orElse,
    Option.orElse_eq_or, refuse_or, bind_assoc]
  refine related_refuse (related_refuse ?_)
  exact .ok (follows_insert_tuples h (h.tuples.insertMany tuples) .done)

theorem follows_deleteTuples (filter : TupleFilter) :
    Related (Follows Holds m tenant) (m.perform (tenant, .deleteTuples filter))
      (r.perform tenant (.deleteTuples filter)) := by
  simp only [perform, Records.perform, deleteTuples, checkTenant_eq_refuse,
    Option.orElse_eq_orElse, Option.orElse_eq_or, refuse_or, bind_assoc,
    TupleFilter.isEmpty_iff]
  refine related_refuse ?_
  split
  next => exact .error _
  next =>
    have htuples := h.tuples
    cases hentry : m.tuples[tenant]? with
    | none =>
      -- without an entry there is nothing to delete, and none is made
      rw [getD_of_none hentry] at htuples
      have hgone : r.tuples.filter filter.Matches = ∅ := by
        rw [htuples.eq_empty, Finset.filter_empty]
      rw [hgone, Finset.sdiff_empty]
      exact .ok (follows_self h _)
    | some stored =>
      rw [getD_of_some hentry] at htuples
      rw [← htuples.size_sub_size filter]
      exact .ok (follows_insert_tuples h (htuples.without filter) _)

theorem follows_writeAttributes (attributes : List (Attribute Json)) :
    Related (Follows Holds m tenant)
      (m.perform (tenant, .writeAttributes attributes))
      (r.perform tenant (.writeAttributes attributes)) := by
  simp only [perform, Records.perform, writeAttributes, checkTenant_eq_refuse,
    forM_eq_refuse Attribute.checkFields_eq_refuse, Option.orElse_eq_orElse,
    Option.orElse_eq_or, refuse_or, bind_assoc]
  refine related_refuse (related_refuse ?_)
  exact .ok (follows_insert_attributes h (h.attributes.write attributes) .done)

theorem follows_deleteAttributes (entity : EntityRef) (name : Option String) :
    Related (Follows Holds m tenant)
      (m.perform (tenant, .deleteAttributes entity name))
      (r.perform tenant (.deleteAttributes entity name)) := by
  have hattributes := h.attributes
  have hrecords : r.perform tenant (.deleteAttributes entity name)
      = .ok (.removed (r.attributes.asked entity name).card,
        { r with attributes :=
            r.attributes.without (r.attributes.asked entity name) }) := rfl
  simp only [hrecords, perform, deleteAttributes]
  cases hentry : m.attributes[tenant]? with
  | none =>
    rw [getD_of_none hentry] at hattributes
    have hnone : (∅ : AttributeTree)[entity]? = none :=
      Std.TreeMap.getElem?_emptyc
    rw [hattributes.asked_eq_empty hnone, AttributeValues.without_empty]
    exact .ok (follows_self h _)
  | some tree =>
    rw [getD_of_some hentry] at hattributes
    rw [← hattributes.count_delete]
    exact .ok (follows_insert_attributes h (hattributes.delete entity name) _)

theorem follows_readSchema (version : String) :
    Related (Follows Holds m tenant) (m.perform (tenant, .readSchema version))
      (r.perform tenant (.readSchema version)) := by
  have hfind : m.schemas[tenant]?.bind
      (·.find? fun t => t.version == version) = r.version? version := by
    rw [bind_eq_of_none (d := []) rfl, h.versions]
    rfl
  simp only [perform, Records.perform, readSchema, hfind]
  cases r.version? version with
  | none => exact .error _
  | some schema => exact .ok (follows_self h _)

theorem follows_latestSchema :
    Related (Follows Holds m tenant) (m.perform (tenant, .latestSchema))
      (r.perform tenant .latestSchema) := by
  have hnewest : m.schemas[tenant]?.bind StoredSchema.newest? = r.latest? := by
    rw [bind_eq_of_none (d := []) rfl, h.versions, r.newest?_eq_latest?]
  simp only [perform, Records.perform, latestSchema, hnewest]
  cases r.latest? with
  | none => exact .error _
  | some schema => exact .ok (follows_self h _)

/-- **Every request about a tenant is replied to from its records.** -/
theorem follows_perform (request : Request) :
    Related (Follows Holds m tenant) (m.perform (tenant, request))
      (r.perform tenant request) := by
  cases request with
  | writeSchema schema => exact follows_writeSchema h schema
  | readSchema version => exact follows_readSchema h version
  | latestSchema => exact follows_latestSchema h
  | schemaVersions =>
    refine .ok ?_
    rw [schemaVersions, h.versions, r.map_newestFirst_eq_versionNames]
    exact follows_self h _
  | writeTuples tuples => exact follows_writeTuples h tuples
  | deleteTuples filter => exact follows_deleteTuples h filter
  | readTuples filter =>
    refine .ok ?_
    rw [m.readTuples_eq, h.tuples.read]
    exact follows_self h _
  | writeAttributes attributes => exact follows_writeAttributes h attributes
  | deleteAttributes entity name => exact follows_deleteAttributes h entity name
  | readAttributes entity =>
    refine .ok ?_
    rw [m.readAttributes_eq, h.attributes.read]
    exact follows_self h _

end

/-- **A store in memory replies as a store does** to requests in a row,
whatever the hashes of tuples are. -/
theorem replies_eq_store (requests : List (String × Request)) :
    replies perform ({} : MemoryStore) requests
      = replies Store.perform {} requests :=
  (replies_eq_of_follows follows_perform holds_new requests).trans
    (replies_eq_of_follows Store.follows_perform isKeptIn_new requests).symm

end MemoryStore

end Entitlement
