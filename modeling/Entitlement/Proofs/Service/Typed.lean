import Entitlement.Proofs.Ascending
import Entitlement.Proofs.Service.OtherTuples
import Entitlement.Proofs.Service.Written

/-!
# Stored data has a type

A service writes tuples and attributes that its latest schema admits. A
later version need not admit them any more, but the version that did stays,
so whatever is stored is typed by *some* version of its tenant
(`TenantData.Typed`). Every operation keeps this, and so it holds in every
state that a service comes to by its own operations
(`Service.Typed.after`).

Attributes are stored as JSON, and not every value comes back from it: one
with a number that is not finite is lost. What does come back is the value
that was written (`AttributeValue.eq_of_ofJson?_toJson`), and hence of the
type that it was admitted with.
-/

namespace Entitlement

/-! ## Values that are read back -/

namespace AttributeValue

/-- A whole number of 64 bits is read as itself. -/
theorem ofInt_toInt (n : Int64) : ofInt n.toInt = int n := by
  have hfits : fitsInt64 n.toInt = true := by
    have hle := n.le_toInt
    have hlt := n.toInt_lt
    unfold fitsInt64
    simp only [Bool.and_eq_true, decide_eq_true_eq]
    omega
  unfold ofInt
  rw [if_pos hfits, Int64.ofInt_toInt]

mutual

/-- **What is read back is what was written.** -/
theorem eq_of_ofJson?_toJson :
    ∀ (v : AttributeValue) {w : AttributeValue},
      ofJson? v.toJson = some w → w = v
  | .bool b, w, h => by
    rw [toJson, ofJson?] at h
    exact (Option.some.inj h).symm
  | .int n, w, h => by
    rw [toJson, ofJson?, ofInt_toInt] at h
    exact (Option.some.inj h).symm
  | .float d, w, h => by
    rw [toJson] at h
    split at h
    · rw [ofJson?] at h
      exact (Option.some.inj h).symm
    · rw [ofJson?] at h
      cases h
  | .string s, w, h => by
    rw [toJson, ofJson?] at h
    exact (Option.some.inj h).symm
  | .list items, w, h => by
    rw [toJson, ofJson?, Option.map_eq_some_iff] at h
    obtain ⟨items', hitems, rfl⟩ := h
    rw [eq_of_ofItems?_itemsToJson items hitems]
  | .map fields, w, h => by
    rw [toJson, ofJson?, Option.map_eq_some_iff] at h
    obtain ⟨fields', hfields, rfl⟩ := h
    rw [eq_of_ofFields?_fieldsToJson fields hfields]

theorem eq_of_ofItems?_itemsToJson :
    ∀ (items : List AttributeValue) {items' : List AttributeValue},
      ofItems? (itemsToJson items) = some items' → items' = items
  | [], items', h => by
    rw [itemsToJson, ofItems?] at h
    exact (Option.some.inj h).symm
  | v :: rest, items', h => by
    rw [itemsToJson, ofItems?] at h
    obtain ⟨w, hw, h⟩ := Option.bind_eq_some_iff.mp h
    obtain ⟨rest', hrest, h⟩ := Option.bind_eq_some_iff.mp h
    rw [← Option.some.inj h, eq_of_ofJson?_toJson v hw,
      eq_of_ofItems?_itemsToJson rest hrest]

theorem eq_of_ofFields?_fieldsToJson :
    ∀ (fields : List (String × AttributeValue))
      {fields' : List (String × AttributeValue)},
      ofFields? (fieldsToJson fields) = some fields' → fields' = fields
  | [], fields', h => by
    rw [fieldsToJson, ofFields?] at h
    exact (Option.some.inj h).symm
  | (name, v) :: rest, fields', h => by
    rw [fieldsToJson, ofFields?] at h
    obtain ⟨w, hw, h⟩ := Option.bind_eq_some_iff.mp h
    obtain ⟨rest', hrest, h⟩ := Option.bind_eq_some_iff.mp h
    rw [← Option.some.inj h, eq_of_ofJson?_toJson v hw,
      eq_of_ofFields?_fieldsToJson rest hrest]

end

end AttributeValue

/-! ## Fields -/

theorem checkIdentifiers_eq_ok_iff {fields : List (String × String)} :
    checkIdentifiers fields = .ok () ↔
      ∀ field ∈ fields, field.2 ≠ "" ∧
        field.2.utf8ByteSize ≤ maxIdentifierLength := by
  induction fields with
  | nil => exact iff_of_true rfl fun _ h => absurd h List.not_mem_nil
  | cons first rest ih =>
    have hfirst : checkIdentifier first.1 first.2 = .ok () ↔
        first.2 ≠ "" ∧ first.2.utf8ByteSize ≤ maxIdentifierLength := by
      unfold checkIdentifier
      by_cases hempty : first.2 = ""
      · simp [hempty]
      · by_cases hlong : maxIdentifierLength < first.2.utf8ByteSize
        · simp [hempty, hlong]
        · simp [hempty, hlong, Nat.le_of_not_lt hlong]
    rw [checkIdentifiers, Outcome.bind_eq_ok_iff, List.forall_mem_cons, ← ih,
      ← hfirst]
    constructor
    · rintro ⟨⟨⟩, hx, hxs⟩
      exact ⟨hx, hxs⟩
    · rintro ⟨hx, hxs⟩
      exact ⟨(), hx, hxs⟩

/-- **Whether the fields of a tuple are given and not too long.** The
relation of the subject may be missing, but it is not empty. -/
structure Tuple.FieldsFit (t : Tuple) : Prop where
  nonempty : ∀ field ∈
    [t.entityType, t.entityId, t.relation, t.subjectType, t.subjectId],
    field ≠ ""
  short : ∀ field ∈
    [t.entityType, t.entityId, t.relation, t.subjectType, t.subjectId],
    field.utf8ByteSize ≤ 256
  subjectRelation : t.subjectRelation = none ∨
    ∃ relation, t.subjectRelation = some relation ∧ relation ≠ "" ∧
      relation.utf8ByteSize ≤ 256

/-- What the store takes fits. -/
theorem Tuple.fieldsFit_of_checkFields {t : Tuple}
    (h : t.checkFields = .ok ()) : t.FieldsFit := by
  obtain ⟨entityType, entityId, relation, subjectType, subjectId,
    subjectRelation⟩ := t
  rw [checkFields, checkIdentifiers_eq_ok_iff, List.forall_mem_append] at h
  obtain ⟨hfields, hsubject⟩ := h
  simp only [List.forall_mem_cons] at hfields
  refine ⟨?_, ?_, ?_⟩
  · simp [hfields]
  · simpa [maxIdentifierLength] using
      ⟨hfields.1.2, hfields.2.1.2, hfields.2.2.1.2, hfields.2.2.2.1.2,
        hfields.2.2.2.2.1.2⟩
  · cases subjectRelation with
    | none => exact .inl rfl
    | some relation =>
      exact .inr ⟨relation, rfl,
        hsubject ("subject_relation", relation) (by simp)⟩

/-- An empty relation of a subject is none to a schema. -/
theorem Schema.relationshipFault?_normalize (schema : Schema) (t : Tuple) :
    schema.relationshipFault? t.normalize = schema.relationshipFault? t := by
  have hsort : t.normalize.subjectSort = t.subjectSort := by
    unfold Tuple.subjectSort Tuple.normalize
    cases t.subjectRelation with
    | none => rfl
    | some relation =>
      by_cases h : relation = "" <;> simp [h]
  unfold relationshipFault?
  rw [hsort]
  rfl

/-- **An attribute that a schema admits is declared**, and its value is of
the declared type. -/
theorem Schema.conformsTo_of_admitted {schema : Schema}
    {a : Attribute AttributeValue} (h : schema.attributeFault? a = none) :
    ∃ entityType declared, schema.entity? a.entityType = some entityType ∧
      entityType.attribute? a.name = some declared ∧
      a.value.conformsTo declared.type = true := by
  unfold attributeFault? at h
  split at h
  · cases h
  next entityType hentity =>
    split at h
    · cases h
    next declared hdeclared =>
      split at h
      next hconforms =>
        exact ⟨entityType, declared, hentity, hdeclared, hconforms⟩
      · cases h

/-! ## Data -/

/-- **Whether a tuple may be stored**, if some schemas are known: its fields
fit, and one of the schemas admits it. -/
structure Tuple.TypedBy (known : Schema → Prop) (t : Tuple) : Prop where
  fields : t.FieldsFit
  admitted : ∃ schema, known schema ∧ schema.relationshipFault? t = none

/-- **Whether an attribute may be stored**, if some schemas are known: it is
the JSON of a value that one of the schemas admits. -/
def Attribute.TypedBy (known : Schema → Prop) (a : Attribute Json) : Prop :=
  ∃ v : AttributeValue, a.value = v.toJson ∧
    ∃ schema, known schema ∧
      schema.attributeFault? { a with value := v } = none

namespace TenantData

variable {check : ExpressionCheck} {tenant : String} {data : TenantData}

/-- **Whether a schema is one of a tenant's**: what a stored version
compiles to. -/
def Knows (check : ExpressionCheck) (tenant : String) (data : TenantData)
    (schema : Schema) : Prop :=
  ∃ stored ∈ data.schemas, stored.compile check tenant = .ok schema

/-- **Whether all data is typed** by versions that are stored with it. -/
structure Typed (check : ExpressionCheck) (tenant : String)
    (data : TenantData) : Prop where
  tuples : ∀ t ∈ data.tuples, t.TypedBy (data.Knows check tenant)
  attributes : ∀ a ∈ data.attributes, a.TypedBy (data.Knows check tenant)

namespace Typed

theorem empty : Typed check tenant {} where
  tuples := fun _ h => absurd h List.not_mem_nil
  attributes := fun _ h => absurd h List.not_mem_nil

/-- **Another version takes no type away.** -/
theorem addVersion (h : data.Typed check tenant) (stored : StoredSchema) :
    Typed check tenant
      { data with schemas := data.schemas ++ [stored] } := by
  have hknows : ∀ schema, data.Knows check tenant schema →
      Knows check tenant
        { data with schemas := data.schemas ++ [stored] } schema :=
    fun _ ⟨s, hs, hcompile⟩ =>
      ⟨s, List.mem_append_left [stored] hs, hcompile⟩
  constructor
  · intro t ht
    obtain ⟨hfields, schema, hschema, hfault⟩ := h.tuples t ht
    exact ⟨hfields, schema, hknows schema hschema, hfault⟩
  · intro a ha
    obtain ⟨v, hv, schema, hschema, hfault⟩ := h.attributes a ha
    exact ⟨v, hv, schema, hknows schema hschema, hfault⟩

theorem withTuples (h : data.Typed check tenant) {tuples : List Tuple}
    (ht : ∀ t ∈ tuples, t.TypedBy (data.Knows check tenant)) :
    Typed check tenant { data with tuples } :=
  ⟨ht, h.attributes⟩

theorem withAttributes (h : data.Typed check tenant)
    {attributes : List (Attribute Json)}
    (ha : ∀ a ∈ attributes, a.TypedBy (data.Knows check tenant)) :
    Typed check tenant { data with attributes } :=
  ⟨h.tuples, ha⟩

end Typed

end TenantData

namespace Service

variable {engine : ExpressionEngine} {s s' : Service engine}
  {tenant : String}

/-! ## Writing -/

/-- **Whether all that a service stores is typed.** -/
def Typed (s : Service engine) : Prop :=
  ∀ tenant, (s.store.tenant tenant).Typed engine.refusal? tenant

theorem typed_new (settings : Settings) :
    ({ settings } : Service engine).Typed :=
  fun _ => .empty

/-- Typed data may take the place of what was there. -/
theorem Typed.withData (h : s.Typed) {data : TenantData}
    (hdata : data.Typed engine.refusal? tenant) :
    (s.withData tenant data).Typed := by
  intro other
  show ((s.store.setTenant tenant data).tenant other).Typed _ _
  by_cases hother : other = tenant
  · rw [hother, Store.tenant_setTenant_self]
    exact hdata
  · rw [Store.tenant_setTenant_of_ne s.store data hother]
    exact h other

theorem Typed.of_store_eq (h : s.Typed) (hs : s'.store = s.store) :
    s'.Typed := by
  unfold Typed
  rw [hs]
  exact h

theorem Typed.remember (h : s.Typed) (tenant : String)
    (version : Option String) : (s.remember tenant version).Typed :=
  h.of_store_eq (store_remember tenant version)

theorem Typed.answer {α : Type} (h : s.Typed) (tenant : String)
    (version : Option String) (query : Resolver → Except Failure α)
    (shown : α → Answer) :
    (s.answer tenant version query shown).2.Typed := by
  unfold Service.answer
  simp only
  split <;> exact h.remember tenant version

/-- The schema that is read is one of the tenant's. -/
theorem Coherent.knows_of_readSchema (h : s.Coherent)
    {version : Option String} {schema : Schema}
    (hs : s.readSchema tenant version = .ok schema) :
    (s.store.tenant tenant).Knows engine.refusal? tenant schema := by
  obtain ⟨-, -, hs⟩ := Outcome.bind_eq_ok_iff.mp hs
  rw [Outcome.mapError_eq_ok_iff] at hs
  obtain ⟨stored, hread, hcompile⟩ := h.readSchema_of_resolveSchema hs
  exact ⟨stored, (Store.mem_of_readSchema hread).1, hcompile⟩

theorem checkRelationship_eq_ok_iff {schema : Schema} {t : Tuple} :
    checkRelationship schema t = .ok () ↔
      schema.relationshipFault? t = none := by
  unfold checkRelationship
  cases schema.relationshipFault? t <;> simp

theorem checkAttribute_eq_ok_iff {schema : Schema}
    {a : Attribute AttributeValue} :
    checkAttribute schema a = .ok () ↔ schema.attributeFault? a = none := by
  unfold checkAttribute
  cases schema.attributeFault? a <;> simp

theorem Typed.writeSchema (h : s.Typed) {source version : String}
    {createdAt : Int}
    (hs : s.writeSchema tenant source version createdAt = .ok s') :
    s'.Typed := by
  obtain ⟨-, store, -, -, hstore, rfl⟩ := writeSchema_eq_ok_iff.mp hs
  obtain ⟨-, rfl⟩ := Store.writeSchema_eq_ok hstore
  exact h.withData ((h tenant).addVersion _)

/-- **The tuples that are written are typed** by the latest schema. -/
theorem Typed.writeRelationships (h : s.Typed) (hc : s.Coherent)
    {tuples : List Tuple}
    (hs : s.writeRelationships tenant tuples = .ok s') : s'.Typed := by
  obtain ⟨schema, store, hschema, hadmitted, hstore, rfl⟩ :=
    writeRelationships_eq_ok_iff.mp hs
  obtain ⟨hfields, rfl⟩ := Store.writeTuples_eq_ok hstore
  refine h.withData ((h tenant).withTuples fun t ht => ?_)
  rcases mem_or_mem_of_mem_insertAllBy ht with ht | ht
  · exact (h tenant).tuples t ht
  · refine ⟨Tuple.fieldsFit_of_checkFields (hfields t ht), schema,
      hc.knows_of_readSchema hschema, ?_⟩
    obtain ⟨written, hwritten, rfl⟩ := List.mem_map.mp ht
    rw [Schema.relationshipFault?_normalize]
    exact checkRelationship_eq_ok_iff.mp (hadmitted written hwritten)

theorem Typed.deleteRelationships (h : s.Typed) {filter : TupleFilter}
    {n : Nat} (hs : s.deleteRelationships tenant filter = .ok (n, s')) :
    s'.Typed := by
  obtain ⟨store, hstore, rfl⟩ := deleteRelationships_eq_ok hs
  obtain rfl := Store.deleteTuples_eq_ok hstore
  exact h.withData ((h tenant).withTuples fun t ht =>
    (h tenant).tuples t (List.mem_filter.mp ht).1)

/-- **The attributes that are written are typed** by the latest schema. -/
theorem Typed.writeAttributes (h : s.Typed) (hc : s.Coherent)
    {attributes : List (Attribute AttributeValue)}
    (hs : s.writeAttributes tenant attributes = .ok s') : s'.Typed := by
  obtain ⟨schema, store, hschema, hadmitted, hstore, rfl⟩ :=
    writeAttributes_eq_ok_iff.mp hs
  obtain rfl := Store.writeAttributes_eq_ok hstore
  refine h.withData ((h tenant).withAttributes fun a ha => ?_)
  rcases mem_or_mem_of_mem_insertAllBy ha with ha | ha
  · exact (h tenant).attributes a ha
  · obtain ⟨written, hwritten, rfl⟩ := List.mem_map.mp ha
    exact ⟨written.value, rfl, schema, hc.knows_of_readSchema hschema,
      checkAttribute_eq_ok_iff.mp (hadmitted written hwritten)⟩

theorem Typed.deleteAttributes (h : s.Typed) {entity : EntityRef}
    {name : Option String} {n : Nat}
    (hs : s.deleteAttributes tenant entity name = .ok (n, s')) :
    s'.Typed := by
  obtain rfl := deleteAttributes_eq_ok hs
  rw [Store.snd_deleteAttributes]
  exact h.withData ((h tenant).withAttributes fun a ha =>
    (h tenant).attributes a (List.mem_filter.mp ha).1)

/-- **Every operation keeps what is stored typed.** -/
theorem Typed.apply (h : s.Typed) (hc : s.Coherent) (operation : Operation) :
    (s.apply operation).2.Typed := by
  cases operation with
  | writeSchema tenant source version createdAt =>
    exact change_induction (P := Typed) h _ fun hs =>
      h.writeSchema (eq_ok_of_map_unit hs)
  | readSchema tenant version =>
    simp only [Service.apply]
    split <;> exact h.remember tenant version
  | schemaVersions tenant =>
    simp only [Service.apply]
    split <;> exact h
  | writeRelationships tenant tuples =>
    have h := h.remember tenant none
    have hc := hc.remember tenant none
    exact change_induction (P := Typed) h _ fun hs =>
      h.writeRelationships hc (eq_ok_of_map_unit hs)
  | deleteRelationships tenant filter =>
    exact change_induction (P := Typed) h _ h.deleteRelationships
  | writeAttributes tenant attributes =>
    have h := h.remember tenant none
    have hc := hc.remember tenant none
    exact change_induction (P := Typed) h _ fun hs =>
      h.writeAttributes hc (eq_ok_of_map_unit hs)
  | deleteAttributes tenant entity name =>
    exact change_induction (P := Typed) h _ h.deleteAttributes
  | check => exact h.answer _ _ _ _
  | checkMultiple => exact h.answer _ _ _ _
  | subjectPermission => exact h.answer _ _ _ _
  | expand => exact h.answer _ _ _ _
  | lookupEntity => exact h.answer _ _ _ _
  | lookupSubject => exact h.answer _ _ _ _

/-! ## All that is stored -/

theorem Typed.meet (h : s.Typed) (hc : s.Coherent) {event : Event}
    (hown : event.isOwn = true) : (s.meet event).Typed := by
  cases event with
  | operation operation => exact h.apply hc operation
  | forget | disturb => exact h.of_store_eq rfl
  | storeSchema | storeTuples | storeAttributes => cases hown

/-- **What a service stores stays typed**, whatever it is asked to do. -/
theorem Typed.after (h : s.Typed) (hc : s.Coherent) {events : List Event}
    (hown : ∀ event ∈ events, event.isOwn = true) :
    (s.after events).Typed := by
  induction events generalizing s with
  | nil => exact h
  | cons event events ih =>
    rw [List.forall_mem_cons] at hown
    exact ih (h.meet hc hown.1) (hc.meet event) hown.2

/-- A value that is read conforms to the type that a version declares. -/
theorem Typed.exists_conformsTo (h : s.Typed) {entity : EntityRef}
    {attributes : Attributes} {name : String} {value : AttributeValue}
    (hread : (s.resolver tenant).attributes entity = .ok attributes)
    (hvalue : (name, value) ∈ attributes) :
    ∃ schema, (s.store.tenant tenant).Knows engine.refusal? tenant schema ∧
      ∃ entityType declared, schema.entity? entity.type = some entityType ∧
        entityType.attribute? name = some declared ∧
        value.conformsTo declared.type = true := by
  rw [attributes_resolver] at hread
  rw [← eq_of_unlessFaulty hread] at hvalue
  obtain ⟨a, ha, hvalue⟩ := List.mem_filterMap.mp hvalue
  obtain ⟨_, hjson, hvalue⟩ := Option.map_eq_some_iff.mp hvalue
  cases hvalue
  obtain ⟨ha, hof⟩ := List.mem_filter.mp ha
  simp only [Attribute.isOf, Bool.and_eq_true, beq_iff_eq] at hof
  obtain ⟨v, hv, schema, hschema, hfault⟩ := (h tenant).attributes a ha
  rw [hv] at hjson
  obtain rfl := AttributeValue.eq_of_ofJson?_toJson v hjson
  obtain ⟨entityType, declared, hentity, hdeclared, hconforms⟩ :=
    Schema.conformsTo_of_admitted hfault
  rw [hof.1] at hentity
  exact ⟨schema, hschema, entityType, declared, hentity, hdeclared, hconforms⟩

/-- **All stored data is typed by a stored version.** In every state that a
service comes to by operations, for any tenants and in any order, and
whatever is forgotten or disturbed on the way:

* Every stored tuple is admitted by what some stored version of its tenant
  compiles to. Its fields are given and at most 256 bytes long, and the
  relation of its subject is missing or not empty.
* Every value of an attribute that a query reads is of the type that some
  stored version of the tenant declares for it. -/
theorem stored_data_is_typed (settings : Settings) {events : List Event}
    (hown : ∀ event ∈ events, event.isOwn = true) (tenant : String) :
    let s := ({ settings } : Service engine).after events
    let data := s.store.tenant tenant
    (∀ t ∈ data.tuples, t.FieldsFit ∧
      ∃ schema, data.Knows engine.refusal? tenant schema ∧
        checkRelationship schema t = .ok ()) ∧
    ∀ entity attributes, (s.resolver tenant).attributes entity
        = .ok attributes →
      ∀ name value, (name, value) ∈ attributes →
        ∃ schema, data.Knows engine.refusal? tenant schema ∧
          ∃ entityType declared,
            schema.entity? entity.type = some entityType ∧
            entityType.attribute? name = some declared ∧
            value.conformsTo declared.type = true := by
  intro s data
  have htyped : s.Typed :=
    (typed_new settings).after (coherent_new settings) hown
  refine ⟨fun t ht => ?_, fun _ _ hread _ _ => htyped.exists_conformsTo hread⟩
  obtain ⟨hfields, schema, hschema, hfault⟩ := (htyped tenant).tuples t ht
  exact ⟨hfields, schema, hschema, checkRelationship_eq_ok_iff.mpr hfault⟩

/-- A tuple and an attribute, and then a schema that declares neither of
them. -/
def outdated : List Event :=
  [.operation (.writeSchema "t" ("entity user {} entity document " ++
      "{ relation owner @user attribute level float }") "v1" 1),
    .operation (.writeRelationships "t"
      [⟨"document", "d", "owner", "user", "u", some ""⟩]),
    .operation (.writeAttributes "t" [⟨"document", "d", "level", .int 3⟩]),
    .operation (.writeSchema "t" "entity user {}" "v2" 2)]

/-- The level that is read, if nothing else is. -/
def levelOf? : Except Failure Attributes → Option Int64
  | .ok [("level", .int n)] => some n
  | _ => none

theorem levelOf?_eq_some_iff {x : Except Failure Attributes} {n : Int64} :
    levelOf? x = some n ↔ x = .ok [("level", .int n)] := by
  unfold levelOf?
  split <;> simp_all

/-- What is outdated is stored, and still typed. -/
theorem outdated_is_typed :
    (∀ event ∈ outdated, event.isOwn = true) ∧
    let s := ({} : Service Condition.engine).after outdated
    let data := s.store.tenant "t"
    data.schemas.length = 2 ∧
    (∃ t ∈ data.tuples, t.FieldsFit ∧ t.subjectRelation = none ∧
      ∃ schema, data.Knows Condition.engine.refusal? "t" schema ∧
        checkRelationship schema t = .ok ()) ∧
    ∃ attributes, (s.resolver "t").attributes ⟨"document", "d"⟩
        = .ok attributes ∧ ("level", .int 3) ∈ attributes ∧
      ∃ schema, data.Knows Condition.engine.refusal? "t" schema ∧
        ∃ entityType declared, schema.entity? "document" = some entityType ∧
          entityType.attribute? "level" = some declared ∧
          (AttributeValue.int 3).conformsTo declared.type = true := by
  have hown : ∀ event ∈ outdated, event.isOwn = true := by
    simp [outdated, Event.isOwn]
  have hversions : ((({} : Service Condition.engine).after
      outdated).store.tenant "t").schemas.length = 2 := by decide +kernel
  have htuples : ((({} : Service Condition.engine).after outdated).store.tenant
      "t").tuples = [⟨"document", "d", "owner", "user", "u", none⟩] := by
    decide +kernel
  have hattributes : ((({} : Service Condition.engine).after outdated).resolver
      "t").attributes ⟨"document", "d"⟩ = .ok [("level", .int 3)] :=
    levelOf?_eq_some_iff.mp (by decide +kernel)
  obtain ⟨htyped, hconforms⟩ :=
    @stored_data_is_typed Condition.engine {} _ hown "t"
  refine ⟨hown, hversions, ?_, ?_⟩
  · rw [htuples] at htyped ⊢
    obtain ⟨hfit, hadmitted⟩ := htyped _ List.mem_cons_self
    exact ⟨_, List.mem_cons_self, hfit, rfl, hadmitted⟩
  · exact ⟨_, hattributes, List.mem_cons_self,
      hconforms _ _ hattributes _ _ List.mem_cons_self⟩

end Service

end Entitlement
