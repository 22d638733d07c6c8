import Entitlement.Access.Evaluate
import Entitlement.Proofs.Ascending
import Entitlement.Proofs.Outcome

/-!
# The world that a permission query is about

An evaluation reads tuples and attributes piece by piece, through filters,
and some of its reads may fail. What it finds out is about a `World`: the
schema, the subject, all tuples at once, the attributes and the truth of
expressions. Nothing in a world has an order or a depth.

A relation of an entity is held *directly* or *by way of a userset*, and it
leads to *parents*; each is said here as what tuples there are. A resolver
`Reads` the facts of a world if the reads that succeed return all that they
were asked for and nothing else. Then the answers of the three readers,
`holdsDirectly`, `holdsViaUserset` and `parents`, are what the world says.
-/

namespace Entitlement

/-- **What is stored**: tuples, and the attributes of every entity. -/
structure Facts where
  tuples : List Tuple
  attributes : EntityRef → Attributes

/-- **Whether a resolver reads the facts as they are.** Its reads may
fail, but one that succeeds returns exactly what it was asked for. -/
structure Resolver.Reads (r : Resolver) (facts : Facts) : Prop where
  mem_tuples : ∀ {filter : TupleFilter} {tuples : List Tuple},
    r.tuples filter = .ok tuples →
      ∀ t, t ∈ tuples ↔ t ∈ facts.tuples ∧ filter.admits t = true
  attributes_eq : ∀ {e : EntityRef} {attributes : Attributes},
    r.attributes e = .ok attributes → attributes = facts.attributes e

/-- The resolver that reads some facts and never fails to, with one schema
for every version. -/
def Facts.resolver (facts : Facts) (schema : Schema) (maxDepth : UInt32)
    (holds : String → ConditionContext → Except ConditionError Bool) :
    Resolver where
  maxDepth := maxDepth
  defaultPageSize := 1
  schema _ := .ok schema
  tuples filter := .ok (facts.tuples.filter filter.admits)
  attributes e := .ok (facts.attributes e)
  holds := holds

theorem Facts.reads_resolver (facts : Facts) (schema : Schema)
    (maxDepth : UInt32)
    (holds : String → ConditionContext → Except ConditionError Bool) :
    (facts.resolver schema maxDepth holds).Reads facts where
  mem_tuples h t := by
    cases h
    exact List.mem_filter
  attributes_eq h := by
    cases h
    rfl

/-- **What a permission rule speaks about.** The tuples are those that are
stored and those of the query. -/
structure World where
  schema : Schema
  subject : EntityRef
  tuples : List Tuple
  attributes : EntityRef → Attributes
  /-- The context of the query. -/
  context : Attributes
  /-- The truth value of an expression, if it has one. -/
  holds : String → ConditionContext → Except ConditionError Bool

namespace World

/-- **Whether a relation is held directly**: by a tuple that names the
subject itself. -/
def HoldsDirectly (w : World) (e : EntityRef) (relation : String) : Prop :=
  ∃ t ∈ w.tuples, t.isUserset = false ∧ t.entity = e ∧
    t.relation = relation ∧ t.subjectEntity = w.subject

/-- **Whether a relation is held by way of a userset**: by a tuple that
names the holders of a relation of which the subject is one directly. -/
def HoldsViaUserset (w : World) (e : EntityRef) (relation : String) : Prop :=
  ∃ t ∈ w.tuples, t.isUserset = true ∧ t.entity = e ∧
    t.relation = relation ∧
    ∃ member, t.subjectRelation = some member ∧
      w.HoldsDirectly t.subjectEntity member

/-- Whether a relation is held at all. -/
def HoldsRelation (w : World) (e : EntityRef) (relation : String) : Prop :=
  w.HoldsDirectly e relation ∨ w.HoldsViaUserset e relation

/-- **Whether a relation leads to a parent**: a tuple on it names the
parent itself, and the relation admits entities of its type. -/
def IsParent (w : World) (e : EntityRef) (relation : String)
    (parent : EntityRef) : Prop :=
  ∃ entity r, w.schema.entity? e.type = some entity ∧
    entity.relation? relation = some r ∧
    ∃ t ∈ w.tuples, t.isUserset = false ∧ t.entity = e ∧
      t.relation = relation ∧ t.subjectType ∈ r.directTypes ∧
      t.subjectEntity = parent

/-- The variables that the expressions see at an entity. -/
def conditionContext (w : World) (e : EntityRef) : ConditionContext :=
  ⟨w.attributes e, w.attributes w.subject, w.context⟩

/-- **Whether subject relations are either absent or not empty.** An empty
one is written differently but means the same as none. -/
def IsNormal (w : World) : Prop :=
  ∀ t ∈ w.tuples, t.subjectRelation ≠ some ""

end World

namespace Tuple

/-- Among normal tuples, a subject relation makes a userset. -/
theorem isUserset_of_subjectRelation {t : Tuple} {relation : String}
    (hn : t.subjectRelation ≠ some "")
    (h : t.subjectRelation = some relation) : t.isUserset = true := by
  unfold isUserset
  rw [h] at hn ⊢
  simpa using hn

theorem isUserset_of_none {t : Tuple} (h : t.subjectRelation = none) :
    t.isUserset = false := by
  unfold isUserset
  rw [h]

end Tuple

namespace TupleFilter

/-- A filter on a relation asks for the entity and the relation. -/
theorem admits_onRelation {e : EntityRef} {relation : String} {t : Tuple} :
    (onRelation e relation).admits t = true ↔
      t.entity = e ∧ t.relation = relation := by
  obtain ⟨type, id⟩ := e
  simp only [onRelation, admits, agrees, Bool.and_eq_true, beq_iff_eq,
    and_true, Tuple.entity, EntityRef.mk.injEq]
  constructor
  · rintro ⟨⟨rfl, rfl⟩, rfl⟩
    exact ⟨⟨rfl, rfl⟩, rfl⟩
  · rintro ⟨⟨rfl, rfl⟩, rfl⟩
    exact ⟨⟨rfl, rfl⟩, rfl⟩

/-- A filter for grants asks for the subject too. -/
theorem admits_grantsTo {e subject : EntityRef} {relation : String}
    {t : Tuple} :
    (grantsTo e relation subject).admits t = true ↔
      t.entity = e ∧ t.relation = relation ∧ t.subjectEntity = subject := by
  have hsplit : (grantsTo e relation subject).admits t
      = ((onRelation e relation).admits t
        && (subject.type == t.subjectType && subject.id == t.subjectId)) := by
    simp [grantsTo, onRelation, admits, agrees, Bool.and_assoc]
  obtain ⟨type, id⟩ := subject
  rw [hsplit, Bool.and_eq_true, admits_onRelation, and_assoc,
    Bool.and_eq_true, beq_iff_eq, beq_iff_eq, eq_comm (a := type),
    eq_comm (a := id)]
  simp only [Tuple.subjectEntity, EntityRef.mk.injEq]

end TupleFilter

namespace Evaluation

/-- **The world of an evaluation** whose resolver reads the given facts. -/
def world (q : Evaluation) (facts : Facts) : World where
  schema := q.schema
  subject := q.subject
  tuples := facts.tuples ++ q.contextual
  attributes := facts.attributes
  context := q.context
  holds := q.resolver.holds

variable {q : Evaluation} {facts : Facts} {e : EntityRef} {relation : String}

theorem isGrant_iff {t : Tuple} :
    q.isGrant e relation t = true ↔
      t.isUserset = false ∧ t.entity = e ∧ t.relation = relation ∧
        t.subjectEntity = q.subject := by
  simp [isGrant, and_assoc]

/-- **Direct holding is read as it is.** -/
theorem holdsDirectly_eq_ok (hr : q.resolver.Reads facts) {b : Bool}
    (h : q.holdsDirectly e relation = .ok b) :
    b = true ↔ (q.world facts).HoldsDirectly e relation := by
  unfold holdsDirectly at h
  split at h
  next hc =>
    -- a tuple of the query grants, so nothing is read
    obtain ⟨t, ht, hg⟩ := List.any_eq_true.mp hc
    cases h
    exact iff_of_true rfl
      ⟨t, List.mem_append_right facts.tuples ht, isGrant_iff.mp hg⟩
  next hc =>
    obtain ⟨stored, hs, h⟩ := Outcome.bind_eq_ok_iff.mp h
    rw [Outcome.pure_eq_ok_iff] at h
    rw [← h, List.any_eq_true]
    constructor
    · rintro ⟨t, ht, hg⟩
      have hmem := ((hr.mem_tuples hs t).mp ht).1
      exact ⟨t, List.mem_append_left q.contextual hmem, isGrant_iff.mp hg⟩
    · rintro ⟨t, ht, hg⟩
      have hgrant : q.isGrant e relation t = true := isGrant_iff.mpr hg
      rcases List.mem_append.mp ht with ht | ht
      · have hadmits : (TupleFilter.grantsTo e relation q.subject).admits t
            = true := TupleFilter.admits_grantsTo.mpr hg.2
        exact ⟨t, (hr.mem_tuples hs t).mpr ⟨ht, hadmits⟩, hgrant⟩
      · exact absurd (List.any_eq_true.mpr ⟨t, ht, hgrant⟩) hc

/-- The tuples on a relation are read as they are. -/
theorem tuplesOn_eq_ok (hr : q.resolver.Reads facts) {tuples : List Tuple}
    (h : q.tuplesOn e relation = .ok tuples) (t : Tuple) :
    t ∈ tuples ↔
      t ∈ (q.world facts).tuples ∧ t.entity = e ∧ t.relation = relation := by
  obtain ⟨stored, hs, h⟩ := Outcome.bind_eq_ok_iff.mp h
  rw [Outcome.pure_eq_ok_iff] at h
  rw [← h, List.mem_append, hr.mem_tuples hs, List.mem_filter,
    TupleFilter.admits_onRelation, ← or_and_right]
  exact and_congr_left' List.mem_append.symm

/-- **Holding by way of a userset is read as it is.** -/
theorem holdsViaUserset_eq_ok (hr : q.resolver.Reads facts)
    (hn : (q.world facts).IsNormal) {b : Bool}
    (h : q.holdsViaUserset e relation = .ok b) :
    b = true ↔ (q.world facts).HoldsViaUserset e relation := by
  obtain ⟨tuples, ht, h⟩ := Outcome.bind_eq_ok_iff.mp h
  constructor
  · rintro rfl
    obtain ⟨t, hmem, h⟩ := Outcome.exists_of_anyM h
    obtain ⟨hw, he, hrel⟩ := (tuplesOn_eq_ok hr ht t).mp hmem
    unfold holdsUserset at h
    split at h
    · simp at h
    next member hm =>
      have hu := Tuple.isUserset_of_subjectRelation (hn t hw) hm
      exact ⟨t, hw, hu, he, hrel, member, hm,
        (holdsDirectly_eq_ok hr h).mp rfl⟩
  · rintro ⟨t, hw, -, he, hrel, member, hm, hd⟩
    cases b with
    | true => rfl
    | false =>
      -- the search went past the tuple and found it to be no grant
      have hno := Outcome.forall_of_anyM h t
        ((tuplesOn_eq_ok hr ht t).mpr ⟨hw, he, hrel⟩)
      unfold holdsUserset at hno
      rw [hm] at hno
      exact (holdsDirectly_eq_ok hr hno).mpr hd

/-- **Parents are read as they are.** -/
theorem parents_eq_ok (hr : q.resolver.Reads facts) {r : Relation}
    {entity : EntityType} (he : q.schema.entity? e.type = some entity)
    (hrel : entity.relation? relation = some r) {parents : List EntityRef}
    (h : q.parents e r = .ok parents) (parent : EntityRef) :
    parent ∈ parents ↔ (q.world facts).IsParent e relation parent := by
  have hname : r.name = relation := by
    simpa using List.find?_some hrel
  obtain ⟨tuples, ht, h⟩ := Outcome.bind_eq_ok_iff.mp h
  rw [Outcome.pure_eq_ok_iff] at h
  rw [← h, mem_ascending_iff EntityRef.isFaithfulKey, List.mem_map]
  constructor
  · rintro ⟨t, hmem, hp⟩
    rw [List.mem_filter, tuplesOn_eq_ok hr ht, hname] at hmem
    obtain ⟨⟨hw, hte, htr⟩, hd⟩ := hmem
    simp only [Bool.and_eq_true, Bool.not_eq_true', List.contains_iff_mem]
      at hd
    exact ⟨entity, r, he, hrel, t, hw, hd.1, hte, htr, hd.2, hp⟩
  · rintro ⟨entity', r', he', hrel', t, hw, hu, hte, htr, hd, hp⟩
    cases he.symm.trans he'
    cases hrel.symm.trans hrel'
    refine ⟨t, ?_, hp⟩
    rw [List.mem_filter, tuplesOn_eq_ok hr ht, hname]
    simp only [Bool.and_eq_true, Bool.not_eq_true', List.contains_iff_mem]
    exact ⟨⟨hw, hte, htr⟩, hu, hd⟩

/-- The type of a parent is one that the relation admits. -/
theorem mem_directTypes_of_parents {r : Relation} {parents : List EntityRef}
    (h : q.parents e r = .ok parents) {parent : EntityRef}
    (hp : parent ∈ parents) : parent.type ∈ r.directTypes := by
  obtain ⟨tuples, -, h⟩ := Outcome.bind_eq_ok_iff.mp h
  cases h
  rw [mem_ascending_iff EntityRef.isFaithfulKey, List.mem_map] at hp
  obtain ⟨t, ht, rfl⟩ := hp
  simp only [List.mem_filter, Bool.and_eq_true, List.contains_iff_mem] at ht
  exact ht.2.2

end Evaluation

/-! ## A document

Its owner is all that is known of it. -/

namespace Resolver

/-- Owners view documents. -/
def documentSchema : Schema where
  tenant := "t"
  version := "v"
  source := ""
  rules := []
  entities := [{ name := "user" }, {
    name := "document"
    relations := [⟨"owner", [⟨"user", none⟩]⟩]
    permissions := [⟨"view", .relation "owner"⟩] }]
  createdAt := 0
  updatedAt := 0

/-- A document with an owner. -/
def documentFacts : Facts where
  tuples := [⟨"document", "d", "owner", "user", "u", none⟩]
  attributes _ := []

/-- Who can be asked about it. -/
def documentResolver : Resolver :=
  documentFacts.resolver documentSchema 100
    fun text _ => .error (.notEvaluated text)

end Resolver

end Entitlement
