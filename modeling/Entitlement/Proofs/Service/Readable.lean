import Entitlement.Proofs.Distinct
import Entitlement.Proofs.Service.Recorded
import Entitlement.Proofs.Service.Queries
import Entitlement.Proofs.Service.Typed

/-!
# What is written is read

The attributes of an entity are stored as JSON and read back for every query,
and what is no value is passed over. A number that is not finite has no JSON
and becomes null. If it is the whole value, the attribute is refused, but
within a list the null is not looked for: the attribute is written, and then
passed over when it is read (`Service.nested_number_is_lost`).

Everything else that is written is read
(`Service.written_attributes_are_read`): of each attribute the value that was
written last, and all others as they were.
-/

namespace Entitlement

/-! ## Values -/

namespace AttributeValue

mutual

/-- **Whether all numbers in a value are finite.** -/
def isFinite : AttributeValue → Bool
  | bool _ | int _ | string _ => true
  | float d => d.isFinite
  | list items => itemsFinite items
  | map fields => fieldsFinite fields

/-- Whether all numbers in the values of a list are. -/
def itemsFinite : List AttributeValue → Bool
  | [] => true
  | v :: rest => v.isFinite && itemsFinite rest

/-- Whether all numbers in named values are. -/
def fieldsFinite : List (String × AttributeValue) → Bool
  | [] => true
  | (_, v) :: rest => v.isFinite && fieldsFinite rest

end

mutual

/-- **A value is read from its JSON** exactly if its numbers are finite. -/
theorem ofJson?_toJson :
    ∀ v : AttributeValue,
      ofJson? v.toJson = if v.isFinite then some v else none
  | .bool _ | .string _ => by
    rw [toJson, ofJson?, isFinite, if_pos rfl]
  | .int n => by
    rw [toJson, ofJson?, ofInt_toInt, isFinite, if_pos rfl]
  | .float d => by
    rw [toJson, isFinite]
    split <;> rw [ofJson?]
  | .list items => by
    rw [toJson, ofJson?, ofItems?_itemsToJson, isFinite]
    split <;> rfl
  | .map fields => by
    rw [toJson, ofJson?, ofFields?_fieldsToJson, isFinite]
    split <;> rfl

theorem ofItems?_itemsToJson :
    ∀ items : List AttributeValue,
      ofItems? (itemsToJson items)
        = if itemsFinite items then some items else none
  | [] => by
    rw [itemsToJson, ofItems?, itemsFinite, if_pos rfl]
  | v :: rest => by
    rw [itemsToJson, ofItems?, ofJson?_toJson v, ofItems?_itemsToJson rest,
      itemsFinite]
    cases v.isFinite <;> cases itemsFinite rest <;> rfl

theorem ofFields?_fieldsToJson :
    ∀ fields : List (String × AttributeValue),
      ofFields? (fieldsToJson fields)
        = if fieldsFinite fields then some fields else none
  | [] => by
    rw [fieldsToJson, ofFields?, fieldsFinite, if_pos rfl]
  | (name, v) :: rest => by
    rw [fieldsToJson, ofFields?, ofJson?_toJson v, ofFields?_fieldsToJson rest,
      fieldsFinite]
    cases v.isFinite <;> cases fieldsFinite rest <;> rfl

end

/-- **Only in a list can a number that is not finite be written**: alone it
is null, and no declared type has maps. -/
theorem exists_list_of_conformsTo {v : AttributeValue} {t : AttributeType}
    (hconforms : v.conformsTo t = true) (hnull : v.toJson.isNull = false)
    (hlost : v.isFinite = false) : ∃ items, v = .list items := by
  unfold conformsTo at hconforms
  cases v with
  | list items => exact ⟨items, rfl⟩
  | bool | int | string =>
    rw [isFinite] at hlost
    cases hlost
  | float d =>
    rw [isFinite] at hlost
    simp [toJson, hlost, Json.isNull] at hnull
  | map fields => simp [isScalar] at hconforms

end AttributeValue

/-! ## Batches -/

/-- **The value that a batch writes last** to an attribute of an entity, if it
writes one. -/
def Attribute.lastWritten? (batch : List (Attribute AttributeValue))
    (entity : EntityRef) (name : String) : Option AttributeValue :=
  (batch.reverse.find? fun a => a.isOf entity && a.name == name).map
    Attribute.value

/-- Behind a batch an attribute has the value that was written last. -/
theorem AttributeValues.lookup_foldl_enter (values : AttributeValues)
    (batch : List (Attribute AttributeValue)) (entity : EntityRef)
    (name : String) :
    ((batch.map Attribute.toJson).foldl enter values).lookup (entity, name)
      = ((Attribute.lastWritten? batch entity name).map
          AttributeValue.toJson).or (values.lookup (entity, name)) := by
  induction batch using List.reverseRecOn with
  | nil => rfl
  | append_singleton batch a ih =>
    have hplace : (entity, name) = a.toJson.place ↔
        (a.isOf entity && a.name == name) = true := by
      show _ ↔ (a.toJson.isOf entity && a.toJson.name == name) = true
      rw [Bool.and_eq_true, Attribute.isOf_iff, beq_iff_eq, Attribute.place,
        Prod.mk.injEq]
      exact and_congr eq_comm eq_comm
    unfold Attribute.lastWritten? at ih ⊢
    rw [List.map_append, List.foldl_append, List.map_singleton,
      List.foldl_cons, List.foldl_nil, lookup_enter, ih, List.reverse_append,
      List.reverse_singleton, List.singleton_append, List.find?_cons]
    cases hof : a.isOf entity && a.name == name with
    | true =>
      rw [if_pos (hplace.mpr hof)]
      rfl
    | false =>
      rw [if_neg fun h => by simp [hplace.mp h] at hof]

/-! ## Reading -/

/-- **A query reads of an attribute what its JSON stands for**, if it has
some. -/
theorem AttributeValues.find?_attributeValues (values : AttributeValues)
    (entity : EntityRef) (name : String) :
    (Store.attributeValues (values.ofEntity entity)).find? name
      = (values.lookup (entity, name)).bind AttributeValue.ofJson? := by
  have hnames : ((Store.attributeValues (values.ofEntity entity)).map
      Prod.fst).Nodup := by
    rw [List.Nodup, List.pairwise_map]
    refine List.Pairwise.filterMap _ (fun a b hab p hp q hq => ?_)
      (values.pairwise_ofEntity entity)
    obtain ⟨_, -, rfl⟩ := Option.map_eq_some_iff.mp hp
    obtain ⟨_, -, rfl⟩ := Option.map_eq_some_iff.mp hq
    exact hab.ne
  refine Option.ext fun v => ?_
  rw [Table.find?_eq_some_iff_mem hnames, Option.bind_eq_some_iff,
    Store.attributeValues, List.mem_filterMap]
  constructor
  · rintro ⟨a, ha, hv⟩
    obtain ⟨v, hv, heq⟩ := Option.map_eq_some_iff.mp hv
    cases heq
    exact ⟨a.value, (mem_ofEntity_iff.mp ha).2, hv⟩
  · rintro ⟨value, hvalue, hv⟩
    refine ⟨⟨entity.type, entity.id, name, value⟩,
      mem_ofEntity_iff.mpr ⟨rfl, hvalue⟩, ?_⟩
    rw [hv]
    rfl

/-- Reads that are disturbed alike correspond if what is read does. -/
theorem related_unlessFaulty {α β : Type} {R : α → β → Prop} {a : α} {b : β}
    (h : R a b) (reason : Option String) :
    Outcome.Related R (unlessFaulty reason a) (unlessFaulty reason b) := by
  cases reason with
  | none => exact .ok h
  | some reason => exact .error _

/-! ## Writing -/

/-- A value that is null is refused. -/
theorem Attribute.not_null_of_checkFields {a : Attribute Json}
    (h : a.checkFields = .ok ()) : a.value.isNull = false := by
  obtain ⟨-, -, h⟩ := Outcome.bind_eq_ok_iff.mp h
  split at h
  next => cases h
  next hnull => exact Bool.eq_false_of_not_eq_true hnull

/-- **Attributes are written** only if the store takes each of them. -/
theorem Store.checkFields_of_writeAttributes {s s' : Store} {tenant : String}
    {attributes : List (Attribute Json)}
    (h : s.writeAttributes tenant attributes = .ok s') :
    ∀ a ∈ attributes, a.checkFields = .ok () := by
  obtain ⟨-, -, h⟩ := Outcome.bind_eq_ok_iff.mp h
  obtain ⟨⟨⟩, hfields, -⟩ := Outcome.bind_eq_ok_iff.mp h
  exact Outcome.forM_eq_ok_iff.mp hfields

namespace Service

variable {engine : ExpressionEngine} {s s' : Service engine}
  {tenant : String} {batch : List (Attribute AttributeValue)}

/-- The service behind a write of attributes that is done. -/
theorem writeAttributes_of_apply_done
    (h : (s.apply (.writeAttributes tenant batch)).1 = .done) :
    (s.remember tenant none).writeAttributes tenant batch
      = .ok (s.apply (.writeAttributes tenant batch)).2 :=
  eq_ok_of_change_done h

/-- **A number that is lost is lost in a list.** -/
theorem exists_list_of_writeAttributes
    (h : s.writeAttributes tenant batch = .ok s')
    {a : Attribute AttributeValue} (ha : a ∈ batch)
    (hlost : a.value.isFinite = false) : ∃ items, a.value = .list items := by
  obtain ⟨schema, store, -, hadmitted, hstore, -⟩ :=
    writeAttributes_eq_ok_iff.mp h
  obtain ⟨_, declared, -, -, hconforms⟩ := Schema.conformsTo_of_admitted
    (checkAttribute_eq_ok_iff.mp (hadmitted a ha))
  have hnull : a.toJson.value.isNull = false :=
    Attribute.not_null_of_checkFields <|
      Store.checkFields_of_writeAttributes hstore a.toJson
        (List.mem_map_of_mem ha)
  exact AttributeValue.exists_list_of_conformsTo hconforms hnull hlost

/-- **A batch is read behind its write**: the last value of each attribute,
unless a number in it is lost, and of the others what was read before. -/
theorem related_attributes (hs : s.store.KeepsLedger)
    (h : s.writeAttributes tenant batch = .ok s') (entity : EntityRef) :
    Outcome.Related
      (fun before behind => ∀ name, behind.find? name =
        match Attribute.lastWritten? batch entity name with
        | some v => if v.isFinite then some v else none
        | none => before.find? name)
      ((s.resolver tenant).attributes entity)
      ((s'.resolver tenant).attributes entity) := by
  obtain ⟨l, hl⟩ := hs
  obtain ⟨_, store, -, -, hstore, rfl⟩ := writeAttributes_eq_ok_iff.mp h
  obtain rfl := Store.writeAttributes_eq_ok hstore
  have hbefore := (hl tenant).attributes
  have hbehind := hbefore.write (batch.map Attribute.toJson)
  refine related_unlessFaulty (fun name => ?_) s.faults.attributes
  simp only [Store.readAttributes, Store.tenant_setTenant_self, hbefore.read,
    hbehind.read, AttributeValues.find?_attributeValues,
    AttributeValues.lookup_foldl_enter]
  cases Attribute.lastWritten? batch entity name with
  | none => rfl
  | some v => exact AttributeValue.ofJson?_toJson v

/-- Nothing is changed for other tenants. -/
theorem attributes_of_writeAttributes
    (h : s.writeAttributes tenant batch = .ok s') {other : String}
    (hother : other ≠ tenant) :
    (s'.resolver other).attributes = (s.resolver other).attributes := by
  obtain ⟨_, store, -, -, hstore, rfl⟩ := writeAttributes_eq_ok_iff.mp h
  obtain rfl := Store.writeAttributes_eq_ok hstore
  exact Store.queryAttributes_eq_of_attributes
    (congrArg _ (Store.tenant_setTenant_of_ne s.store _ hother)) s.faults

/-- **Attributes that are written are read**, but for lists with a number
that is not finite. In every state that a service can come to, if it answers
that a batch of attributes is written, then a query reads behind it of each
attribute that the batch writes the value that it writes last, and of all
others what it read before. The one exception is a value with a number in it
that is not finite, which only a list can be: nothing is read of it. Where
reads are disturbed they fail as before, and nothing is changed for other
tenants. -/
theorem written_attributes_are_read (settings : Settings)
    (events : List Event) (tenant : String)
    (batch : List (Attribute AttributeValue)) :
    let s := ({ settings } : Service engine).after events
    let s' := (s.apply (.writeAttributes tenant batch)).2
    (s.apply (.writeAttributes tenant batch)).1 = .done →
      (∀ entity, Outcome.Related
        (fun before behind => ∀ name, behind.find? name =
          match Attribute.lastWritten? batch entity name with
          | some v => if v.isFinite then some v else none
          | none => before.find? name)
        ((s.resolver tenant).attributes entity)
        ((s'.resolver tenant).attributes entity)) ∧
      (∀ a ∈ batch, a.value.isFinite = false →
        ∃ items, a.value = .list items) ∧
      ∀ other, other ≠ tenant →
        (s'.resolver other).attributes = (s.resolver other).attributes := by
  intro s s' hdone
  have hwrite := writeAttributes_of_apply_done hdone
  have hledger : (s.remember tenant none).store.KeepsLedger := by
    rw [store_remember]
    exact keepsLedger_after settings events
  have hsame (other : String) :
      ((s.remember tenant none).resolver other).attributes
        = (s.resolver other).attributes := by
    show ((s.remember tenant none).bare.resolver other).attributes
      = (s.bare.resolver other).attributes
    rw [bare_remember]
  refine ⟨fun entity => ?_, fun a => exists_list_of_writeAttributes hwrite,
    fun other hother => ?_⟩
  · rw [← hsame]
    exact related_attributes hledger hwrite entity
  · rw [← hsame]
    exact attributes_of_writeAttributes hwrite hother

/-- Documents that have scores are rated. -/
def ratedEvents : List Event :=
  [.operation (.writeSchema "t" ("entity document " ++
    "{ attribute scores float[] permission rated = rule(has(resource.scores)) }")
    "v" 0)]

/-- The service that this is written to. -/
def ratedService : Service Condition.engine :=
  ({} : Service _).after ratedEvents

/-- A document has a single score. -/
def scored (score : Double) : Attribute AttributeValue :=
  ⟨"document", "d", "scores", .list [.float score]⟩

/-- Whether the document is rated. -/
def ratedRequest : CheckRequest where
  tenant := "t"
  entity := ⟨"document", "d"⟩
  permission := "rated"
  subject := ⟨"user", "u"⟩

/-- Whether nothing is read of an entity, but it is read. -/
def readsNothing : Except Failure Attributes → Bool
  | .ok [] => true
  | _ => false

theorem readsNothing_iff {x : Except Failure Attributes} :
    readsNothing x = true ↔ x = .ok [] := by
  unfold readsNothing
  split <;> simp_all

/-- **Of two scores the last one is read**, though the first one could not
be. -/
theorem last_score_is_read :
    let batch := [scored ⟨0x7ff8000000000000⟩, scored ⟨0x3ff8000000000000⟩]
    let s' := (ratedService.apply (.writeAttributes "t" batch)).2
    (ratedService.apply (.writeAttributes "t" batch)).1 = .done ∧
    ∃ attributes, (s'.resolver "t").attributes ⟨"document", "d"⟩
        = .ok attributes ∧
      attributes.find? "scores"
        = some (.list [.float ⟨0x3ff8000000000000⟩]) := by
  intro batch s'
  obtain ⟨hdone, hbefore⟩ :
      isDone (ratedService.apply (.writeAttributes "t" batch)).1 = true ∧
      readsNothing ((ratedService.resolver "t").attributes ⟨"document", "d"⟩)
        = true := by
    decide +kernel
  rw [isDone_iff] at hdone
  rw [readsNothing_iff] at hbefore
  have hread := (written_attributes_are_read {} ratedEvents "t" batch
    hdone).1 ⟨"document", "d"⟩
  obtain ⟨attributes, hattributes, hvalues⟩ := hread.exists_of_ok hbefore
  exact ⟨hdone, attributes, hattributes, hvalues "scores"⟩

/-- **A number that is not finite is lost in a list**, with the attribute
whose value the list is. The write is done, and then nothing is read and the
document is not rated. What is stored is a list with a null in it. -/
theorem nested_number_is_lost :
    let batch := [scored ⟨0x7ff8000000000000⟩]
    let s' := (ratedService.apply (.writeAttributes "t" batch)).2
    (ratedService.apply (.writeAttributes "t" batch)).1 = .done ∧
    Attribute.lastWritten? batch ⟨"document", "d"⟩ "scores"
      = some (.list [.float ⟨0x7ff8000000000000⟩]) ∧
    (s'.resolver "t").attributes ⟨"document", "d"⟩ = .ok [] ∧
    (s'.apply (.check ratedRequest)).1 = .allowed false ∧
    s'.store = (ratedService.meet (.storeAttributes "t"
      [⟨"document", "d", "scores", .array [.null]⟩])).store := by
  intro batch s'
  obtain ⟨hdone, hnothing, hcheck⟩ :
      isDone (ratedService.apply (.writeAttributes "t" batch)).1 = true ∧
      readsNothing ((s'.resolver "t").attributes ⟨"document", "d"⟩) = true ∧
      ((s'.bare.resolver "t").check ratedRequest).toOption = some false := by
    decide +kernel
  rw [isDone_iff] at hdone
  have hs : s'.Coherent := ((coherent_new {}).after ratedEvents).apply _
  refine ⟨hdone, rfl, readsNothing_iff.mp hnothing, ?_, ?_⟩
  · exact hs.apply_check_eq_allowed_iff.mpr (Outcome.eq_ok_of_toOption hcheck)
  · obtain ⟨_, store, -, -, hstore, hs'⟩ :=
      writeAttributes_eq_ok_iff.mp (writeAttributes_of_apply_done hdone)
    rw [store_remember] at hstore
    have hrow : batch.map Attribute.toJson
        = [⟨"document", "d", "scores", .array [.null]⟩] := rfl
    rw [hrow] at hstore
    have hmeet : (ratedService.meet (.storeAttributes "t"
        [⟨"document", "d", "scores", .array [.null]⟩])).store = store := by
      show (ratedService.withStore _).store = store
      rw [hstore]
      rfl
    rw [hmeet]
    exact congrArg Service.store hs'

end Service

end Entitlement
