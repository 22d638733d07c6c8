import Entitlement.Proofs.Store.Order
import Mathlib.Data.Finmap

/-!
# What a store is to its users

A store is asked one thing after the other, each time about a tenant
(`Store.Request`), and it replies or refuses. How it keeps what it is told is
its own affair: to those who ask it is a *ledger*, which has for every tenant
a set of tuples, a finite map from the attributes of entities to their
values, and a list of versions of a schema with distinct names (`Records`).

* A batch of tuples is added to the set as a whole. What matches a filter is
  read in the order of the fields, each tuple once, and deleted and counted.
* A batch of attributes is entered one after the other, so that the last
  value of an attribute counts. Attributes are read in the order of their
  names.
* A version is added unless its name is taken. The latest version is the one
  that no other is above, and the names are listed from the latest on.
* What has a fault changes nothing: an identifier that is empty or too long,
  a value that is null, a filter that asks for nothing.
-/

namespace Entitlement

open scoped Tuple.FieldOrder

/-! ## Requests -/

namespace Store

/-- **What a store is asked about a tenant.** -/
inductive Request
  | writeSchema (schema : StoredSchema)
  | readSchema (version : String)
  | latestSchema
  | schemaVersions
  | writeTuples (tuples : List Tuple)
  | deleteTuples (filter : TupleFilter)
  | readTuples (filter : TupleFilter)
  | writeAttributes (attributes : List (Attribute Json))
  | deleteAttributes (entity : EntityRef) (name : Option String)
  | readAttributes (entity : EntityRef)

/-- **What a store replies** to a request that it does not refuse. -/
inductive Reply
  | done
  | removed (count : Nat)
  | schema (schema : StoredSchema)
  | versions (names : List String)
  | tuples (tuples : List Tuple)
  | attributes (attributes : List (Attribute Json))

/-- The reply of a store to a request about a tenant, and the store behind
it. -/
def perform (s : Store) : String × Request → Except StoreError (Reply × Store)
  | (tenant, .writeSchema schema) => do
    let s' ← s.writeSchema tenant schema
    pure (.done, s')
  | (tenant, .readSchema version) => do
    let schema ← s.readSchema tenant version
    pure (.schema schema, s)
  | (tenant, .latestSchema) => do
    let schema ← s.latestSchema tenant
    pure (.schema schema, s)
  | (tenant, .schemaVersions) => pure (.versions (s.schemaVersions tenant), s)
  | (tenant, .writeTuples tuples) => do
    let s' ← s.writeTuples tenant tuples
    pure (.done, s')
  | (tenant, .deleteTuples filter) => do
    let (count, s') ← s.deleteTuples tenant filter
    pure (.removed count, s')
  | (tenant, .readTuples filter) =>
    pure (.tuples (s.readTuples tenant filter), s)
  | (tenant, .writeAttributes attributes) => do
    let s' ← s.writeAttributes tenant attributes
    pure (.done, s')
  | (tenant, .deleteAttributes entity name) =>
    let (count, s') := s.deleteAttributes tenant entity name
    pure (.removed count, s')
  | (tenant, .readAttributes entity) =>
    pure (.attributes (s.readAttributes tenant entity), s)

/-- **What is replied to requests in a row.** One that is refused changes
nothing for those behind it. -/
def replies {σ : Type}
    (perform : σ → String × Request → Except StoreError (Reply × σ)) (s : σ) :
    List (String × Request) → List (Except StoreError Reply)
  | [] => []
  | request :: rest =>
    match perform s request with
    | .ok (reply, s') => .ok reply :: replies perform s' rest
    | .error e => .error e :: replies perform s rest

end Store

/-! ## Faults -/

/-- What is wrong with an identifier. -/
def identifierFault? (field value : String) : Option StoreError :=
  if value = "" then some (.emptyField field)
  else if maxIdentifierLength < value.utf8ByteSize then some (.longField field)
  else none

/-- What is wrong with a tuple: the first fault of its fields. -/
def Tuple.fault? (t : Tuple) : Option StoreError :=
  identifierFault? "entity_type" t.entityType <|>
  identifierFault? "entity_id" t.entityId <|>
  identifierFault? "relation" t.relation <|>
  identifierFault? "subject_type" t.subjectType <|>
  identifierFault? "subject_id" t.subjectId <|>
  t.subjectRelation.bind (identifierFault? "subject_relation")

/-- What is wrong with an attribute. -/
def Attribute.fault? (a : Attribute Json) : Option StoreError :=
  identifierFault? "entity_type" a.entityType <|>
  identifierFault? "entity_id" a.entityId <|>
  identifierFault? "name" a.name <|>
  match a.value with
  | .null => some (.nullAttribute a.name)
  | _ => none

/-- To go on unless there is a fault. -/
def refuse : Option StoreError → Except StoreError Unit
  | none => .ok ()
  | some e => .error e

/-- Whether a tuple has all that a filter asks for. -/
def TupleFilter.Matches (f : TupleFilter) (t : Tuple) : Prop :=
  (∀ v ∈ f.entityType, t.entityType = v) ∧
  (∀ v ∈ f.entityId, t.entityId = v) ∧
  (∀ v ∈ f.relation, t.relation = v) ∧
  (∀ v ∈ f.subjectType, t.subjectType = v) ∧
  (∀ v ∈ f.subjectId, t.subjectId = v)

instance (f : TupleFilter) (t : Tuple) : Decidable (f.Matches t) :=
  inferInstanceAs (Decidable (_ ∧ _))

/-! ## Records -/

/-- The place of an attribute among all others: its entity and its name. -/
def Attribute.place {α : Type} (a : Attribute α) : EntityRef × String :=
  (⟨a.entityType, a.entityId⟩, a.name)

/-- **The values of attributes**, each by its entity and its name. -/
abbrev AttributeValues := Finmap fun _ : EntityRef × String => Json

namespace AttributeValues

/-- The values with that of an attribute entered. -/
def enter (values : AttributeValues) (a : Attribute Json) : AttributeValues :=
  values.insert a.place a.value

/-- The values without those of some attributes. -/
def without (values : AttributeValues)
    (gone : Finset (EntityRef × String)) : AttributeValues where
  entries := values.entries.filter fun entry => entry.1 ∉ gone
  nodupKeys := Multiset.nodup_keys.mp <| Multiset.nodup_of_le
    (Multiset.map_le_map (Multiset.filter_le _ _))
    (Multiset.nodup_keys.mpr values.nodupKeys)

theorem lookup_enter (values : AttributeValues) (a : Attribute Json)
    (key : EntityRef × String) :
    (values.enter a).lookup key
      = if key = a.place then some a.value else values.lookup key := by
  unfold enter
  split
  next h => rw [h, Finmap.lookup_insert]
  next h => rw [Finmap.lookup_insert_of_ne _ h]

theorem lookup_without (values : AttributeValues)
    (gone : Finset (EntityRef × String)) (key : EntityRef × String) :
    (values.without gone).lookup key
      = if key ∈ gone then none else values.lookup key := by
  refine Option.ext fun value => ?_
  rw [Finmap.lookup_eq_some_iff]
  unfold without
  rw [Multiset.mem_filter, ← Finmap.lookup_eq_some_iff]
  split
  next h => simp [h]
  next h => simp [h]

/-- An attribute of an entity, if it has a value. -/
def attribute? (values : AttributeValues) (entity : EntityRef)
    (name : String) : Option (Attribute Json) :=
  (values.lookup (entity, name)).map fun value =>
    ⟨entity.type, entity.id, name, value⟩

/-- The attributes of an entity in the order of their names. -/
def ofEntity (values : AttributeValues) (entity : EntityRef) :
    List (Attribute Json) :=
  let own := values.keys.filter fun key => key.1 = entity
  (own.image Prod.snd).sort.filterMap (values.attribute? entity)

theorem attribute?_eq_some_iff {values : AttributeValues} {entity : EntityRef}
    {name : String} {a : Attribute Json} :
    values.attribute? entity name = some a ↔
      (⟨a.entityType, a.entityId⟩ : EntityRef) = entity ∧ a.name = name ∧
        values.lookup (entity, name) = some a.value := by
  unfold attribute?
  rw [Option.map_eq_some_iff]
  constructor
  · rintro ⟨value, hvalue, rfl⟩
    exact ⟨rfl, rfl, hvalue⟩
  · rintro ⟨rfl, rfl, hvalue⟩
    exact ⟨a.value, hvalue, rfl⟩

/-- **An entity has the attributes that have a value.** -/
theorem mem_ofEntity_iff {values : AttributeValues} {entity : EntityRef}
    {a : Attribute Json} :
    a ∈ values.ofEntity entity ↔
      (⟨a.entityType, a.entityId⟩ : EntityRef) = entity ∧
        values.lookup (entity, a.name) = some a.value := by
  unfold ofEntity
  simp only [List.mem_filterMap, Finset.mem_sort, Finset.mem_image,
    Finset.mem_filter, attribute?_eq_some_iff]
  constructor
  · rintro ⟨_, -, hentity, rfl, hvalue⟩
    exact ⟨hentity, hvalue⟩
  · rintro ⟨hentity, hvalue⟩
    refine ⟨a.name, ⟨(entity, a.name), ⟨?_, rfl⟩, rfl⟩, hentity, rfl, hvalue⟩
    exact Finmap.mem_keys.mpr (Finmap.mem_of_lookup_eq_some hvalue)

/-- **The attributes of an entity come in the order of their names**, each
name once. -/
theorem pairwise_ofEntity (values : AttributeValues) (entity : EntityRef) :
    (values.ofEntity entity).Pairwise fun a b => a.name < b.name := by
  unfold ofEntity
  refine List.Pairwise.filterMap _ (fun n m hnm a ha b hb => ?_)
    (Finset.sortedLT_sort _).pairwise
  rw [attribute?_eq_some_iff] at ha hb
  rw [ha.2.1, hb.2.1]
  exact hnm

end AttributeValues

/-- **What is recorded for a tenant.** -/
structure Records where
  versions : List StoredSchema := []
  distinct : (versions.map StoredSchema.version).Nodup := by simp
  tuples : Finset Tuple := ∅
  attributes : AttributeValues := ∅

namespace Records

/-- The records with another version, the name of which is new. -/
def addVersion (r : Records) (schema : StoredSchema)
    (hnew : schema.version ∉ r.versions.map StoredSchema.version) :
    Records where
  versions := r.versions ++ [schema]
  distinct := by
    rw [List.map_append, List.nodup_append_comm]
    exact List.nodup_cons.mpr ⟨hnew, r.distinct⟩
  tuples := r.tuples
  attributes := r.attributes

/-- The version of a name. -/
def version? (r : Records) (name : String) : Option StoredSchema :=
  r.versions.find? fun s => s.version = name

/-- The version that no other is above. -/
def latest? (r : Records) : Option StoredSchema :=
  r.versions.find? fun s => ∀ t ∈ r.versions, t.rank ≤ s.rank

/-- The names of the versions, from the highest rank to the lowest. -/
def versionNames (r : Records) : List String :=
  ((r.versions.map StoredSchema.rank).toFinset.sort (· ≥ ·)).map fun rank =>
    (ofLex rank).2

/-- **The reply to a request about a tenant**, and the records behind it. -/
def perform (r : Records) (tenant : String) :
    Store.Request → Except StoreError (Store.Reply × Records)
  | .writeSchema schema => do
    refuse (identifierFault? "tenant_id" tenant <|>
      identifierFault? "version" schema.version)
    if hnew : schema.version ∈ r.versions.map StoredSchema.version then
      throw (.versionExists tenant schema.version)
    else pure (.done, r.addVersion schema hnew)
  | .readSchema version =>
    match r.version? version with
    | some schema => pure (.schema schema, r)
    | none => throw (.schemaNotFound tenant (some version))
  | .latestSchema =>
    match r.latest? with
    | some schema => pure (.schema schema, r)
    | none => throw (.schemaNotFound tenant none)
  | .schemaVersions => pure (.versions r.versionNames, r)
  | .writeTuples tuples => do
    refuse (identifierFault? "tenant_id" tenant <|>
      tuples.findSome? Tuple.fault?)
    pure (.done, { r with tuples := r.tuples ∪ tuples.toFinset })
  | .deleteTuples filter => do
    refuse (identifierFault? "tenant_id" tenant <|>
      if filter = {} then some .emptyFilter else none)
    let gone := r.tuples.filter filter.Matches
    pure (.removed gone.card, { r with tuples := r.tuples \ gone })
  | .readTuples filter =>
    pure (.tuples (r.tuples.filter filter.Matches).sort, r)
  | .writeAttributes attributes => do
    refuse (identifierFault? "tenant_id" tenant <|>
      attributes.findSome? Attribute.fault?)
    let attributes := attributes.foldl AttributeValues.enter r.attributes
    pure (.done, { r with attributes })
  | .deleteAttributes entity name =>
    let gone := r.attributes.keys.filter fun key =>
      key.1 = entity ∧ ∀ asked ∈ name, key.2 = asked
    let attributes := r.attributes.without gone
    pure (.removed gone.card, { r with attributes })
  | .readAttributes entity =>
    pure (.attributes (r.attributes.ofEntity entity), r)

end Records

/-! ## Ledgers -/

/-- **A ledger**: the records of every tenant. -/
abbrev Ledger := String → Records

/-- The reply of a ledger to a request about a tenant, and the ledger behind
it, in which nothing is changed for other tenants. -/
def Ledger.perform (l : Ledger) :
    String × Store.Request → Except StoreError (Store.Reply × Ledger)
  | (tenant, request) => do
    let (reply, r) ← (l tenant).perform tenant request
    pure (reply, Function.update l tenant r)

end Entitlement
