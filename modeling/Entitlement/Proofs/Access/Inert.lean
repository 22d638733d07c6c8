import Entitlement.Proofs.Access.Concern
import Entitlement.Proofs.Schema.References
import Entitlement.Schema.Admission

/-!
# Tuples that a schema does not admit

Tuples are admitted by the schema that is the latest when they are written.
Another version may come later, and a check may ask for any of them, so it
meets tuples that its schema does not admit. Where it looks for parents, it
asks the schema for the types that the relation admits, and there such
tuples do not count. Who holds a relation is looked up by exact match: a
tuple counts that names the subject, or a userset to which the subject
belongs, of whatever sort it is. And the members of a userset may be stored
under a relation that is not declared at all.

`Schema.finds` says which tuples a check finds in these ways. The others are
*inert* if the schema does not admit them (`Schema.isInert`): they may be
removed, all or some, and a check comes to the same, its failures included
(`Resolver.check_without_inert`).
-/

namespace Entitlement

/-! ## Inert tuples -/

/-- Whether a tuple names a subject itself. -/
def Tuple.names (t : Tuple) (subject : EntityRef) : Bool :=
  !t.isUserset && t.subjectEntity == subject

namespace Schema

/-- Whether a schema declares the relation that a tuple is on. -/
def declares (s : Schema) (t : Tuple) : Bool :=
  (s.relation? t.entityType t.relation).isSome

/-- **Whether a check for a subject finds a tuple** when it looks for who
holds a relation, be it admitted or not. The tuple is on a declared relation
and names the subject or a userset to which the subject belongs, or it names
the subject on the relation of a userset that a stored tuple on a declared
relation names. -/
def finds (s : Schema) (stored : List Tuple) (subject : EntityRef)
    (t : Tuple) : Bool :=
  s.declares t && (t.names subject || t.subject.includes stored subject) ||
    t.names subject && stored.any fun u => s.declares u &&
      u.subjectEntity == t.entity && u.subjectRelation == some t.relation

/-- **Whether a stored tuple is inert** in checks for a subject: the schema
does not admit it, and no check finds it among the holders of a
relation. -/
def isInert (s : Schema) (stored : List Tuple) (subject : EntityRef)
    (t : Tuple) : Bool :=
  (s.relationshipFault? t).isSome && !s.finds stored subject t

variable {s : Schema} {t : Tuple} {r : Relation} {e : EntityRef}
  {relation : String}

theorem declares_of_relation? (hr : s.relation? e.type relation = some r)
    (he : t.entity = e) (hrelation : t.relation = relation) :
    s.declares t = true := by
  subst he hrelation
  exact Option.isSome_of_mem hr

/-- **A tuple that leads to a parent is admitted.** -/
theorem relationshipFault?_of_parent
    (hr : s.relation? e.type relation = some r) (he : t.entity = e)
    (hrelation : t.relation = relation) (hplain : t.isUserset = false)
    (htype : t.subjectType ∈ r.directTypes) :
    s.relationshipFault? t = none := by
  subst he hrelation
  obtain ⟨entity, hentity, hr⟩ := relation?_eq_some_iff.mp hr
  have hnone : t.normalize.subjectRelation = none := by
    unfold Tuple.isUserset at hplain
    cases hrel : t.subjectRelation with
    | none => simp [Tuple.normalize, hrel]
    | some member =>
      rw [hrel] at hplain
      simpa [Tuple.normalize, hrel] using hplain
  have hadmits : r.admits t.subjectSort = true := by
    simp only [Relation.directTypes, List.mem_map, List.mem_filter,
      Option.isNone_iff_eq_none] at htype
    obtain ⟨⟨type, _⟩, ⟨hmem, rfl⟩, rfl⟩ := htype
    rw [Relation.admits, List.contains_iff_mem, Tuple.subjectSort, hnone]
    exact hmem
  unfold relationshipFault?
  rw [show s.entity? t.entityType = some entity from hentity]
  simp only [hr, hadmits, if_true]

end Schema

/-! ## Parents have what they are asked for -/

/-- Whether the parents that a rule on an entity type of a name goes on to
have what they are asked for. -/
def Schema.FindsMembersOn (s : Schema) (type : String)
    (rule : PermissionRule) : Prop :=
  ∀ entity, s.entity? type = some entity → rule.FindsMembers s entity

/-- So it is with all rules of a schema whose permissions are so. -/
theorem Schema.FindsMembers.on {s : Schema} (hs : s.FindsMembers)
    {type name : String} {p : Permission}
    (hp : s.permission? type name = some p) : s.FindsMembersOn type p.rule := by
  intro entity he
  rw [permission?_of_entity he] at hp
  exact hs.rule he hp

theorem Schema.FindsMembers.isClosed {s : Schema} (hs : s.FindsMembers) :
    s.IsClosed s.FindsMembersOn where
  left h entity he := (h entity he).1
  right h entity he := (h entity he).2
  not h := h
  notWith h := h
  name _ hp := hs.on hp
  member _ _ _ hp := hs.on hp

/-- A parent without the permission is asked for a relation that its type
declares. -/
theorem Schema.FindsMembersOn.exists_relation? {s : Schema}
    {type relation permission target : String} {r : Relation}
    (h : s.FindsMembersOn type (.member relation permission))
    (hr : s.relation? type relation = some r) (ht : target ∈ r.directTypes)
    (hp : s.permission? target permission = none) :
    ∃ other, s.relation? target permission = some other := by
  obtain ⟨entity, he, hr⟩ := relation?_eq_some_iff.mp hr
  have hfound := h entity he r hr target ht
  rw [hp] at hfound
  exact Option.isSome_iff_exists.mp (hfound.resolve_left (by simp))

/-! ## Evaluations without inert tuples -/

namespace Evaluation

variable {q : Evaluation} {stored : List Tuple} {e : EntityRef}
  {relation : String} {r : Relation}

/-- **What is found stays found.** -/
theorem holdsDirectly_without {keep : Tuple → Bool}
    (hkeep : ∀ t ∈ stored, q.isGrant e relation t = true → keep t = true) :
    (q.overTuples (stored.filter keep) []).holdsDirectly e relation
      = (q.overTuples stored []).holdsDirectly e relation := by
  rw [holdsDirectly_overTuples_eq, holdsDirectly_overTuples_eq,
    (AgreeOn.of_filter hkeep).any fun _ => id]

section Inert

variable {keep : Tuple → Bool}
  (hinert : ∀ t ∈ stored, keep t = false →
    q.schema.isInert stored q.subject t = true)
include hinert

/-- What a check may find is kept. -/
theorem keep_of_finds {t : Tuple} (ht : t ∈ stored)
    (h : q.schema.finds stored q.subject t = true) : keep t = true := by
  cases hk : keep t with
  | true => rfl
  | false =>
    have hi := hinert t ht hk
    rw [Schema.isInert, h] at hi
    simp at hi

/-- What the schema admits is kept. -/
theorem keep_of_admitted {t : Tuple} (ht : t ∈ stored)
    (h : q.schema.relationshipFault? t = none) : keep t = true := by
  cases hk : keep t with
  | true => rfl
  | false =>
    have hi := hinert t ht hk
    rw [Schema.isInert, h] at hi
    simp at hi

/-- The holders of a declared relation stay. -/
theorem holdsDirectly_without_inert
    (hr : q.schema.relation? e.type relation = some r) :
    (q.overTuples (stored.filter keep) []).holdsDirectly e relation
      = (q.overTuples stored []).holdsDirectly e relation := by
  refine holdsDirectly_without fun t ht hg => keep_of_finds hinert ht ?_
  obtain ⟨hplain, he, hrel, hsubject⟩ := isGrant_iff.mp hg
  have hdeclares := Schema.declares_of_relation? hr he hrel
  simp [Schema.finds, Tuple.names, hplain, hsubject, hdeclares]

/-- Whoever belongs to a userset on a declared relation stays a member. -/
theorem includes_without_inert {t : Tuple} (ht : t ∈ stored)
    (hdeclares : q.schema.declares t = true) :
    t.subject.includes (stored.filter keep) q.subject
      = t.subject.includes stored q.subject := by
  unfold SubjectRef.includes
  split
  next => rfl
  next member hrel =>
    have hrel : t.subjectRelation = some member := hrel
    refine (AgreeOn.of_filter fun u hu hg => keep_of_finds hinert hu ?_).any
      fun _ => id
    obtain ⟨hplain, he, rfl, hsubject⟩ := isGrant_iff.mp hg
    have hnamed : (stored.any fun t => q.schema.declares t &&
        t.subjectEntity == u.entity &&
          t.subjectRelation == some u.relation) = true :=
      List.any_eq_true.mpr
        ⟨t, ht, by simp [hdeclares, he, hrel, Tuple.subjectEntity,
          Tuple.subject]⟩
    simp [Schema.finds, Tuple.names, hplain, hsubject, hnamed]

/-- So do those who hold a declared relation by way of a userset: where the
reads of tuples fail alike, it does not matter in how many usersets the
subject is looked for in vain. -/
theorem holdsViaUserset_without_inert {tuples : List Tuple}
    (hreads : q.resolver.ReadsAlike tuples)
    (hr : q.schema.relation? e.type relation = some r) :
    (q.overTuples (stored.filter keep) []).holdsViaUserset e relation
      = (q.overTuples stored []).holdsViaUserset e relation := by
  rcases hreads with hreads | ⟨f, hf⟩
  · rw [holdsViaUserset_of_readsAll (hreads.overTuples _),
      holdsViaUserset_of_readsAll (hreads.overTuples _)]
    show Except.ok (((stored.filter keep ++ []).filter _).any fun t =>
        t.subjectRelation.isSome &&
          t.subject.includes (stored.filter keep ++ []) q.subject)
      = Except.ok (((stored ++ []).filter _).any fun t =>
        t.subjectRelation.isSome &&
          t.subject.includes (stored ++ []) q.subject)
    rw [List.append_nil, List.append_nil]
    have hdeclares : ∀ t,
        (TupleFilter.onRelation e relation).admits t = true →
          q.schema.declares t = true := by
      intro t ht
      obtain ⟨he, hrel⟩ := TupleFilter.admits_onRelation.mp ht
      exact Schema.declares_of_relation? hr he hrel
    refine congrArg Except.ok (Bool.eq_iff_iff.mpr ?_)
    simp only [List.any_eq_true, List.mem_filter, Bool.and_eq_true]
    constructor
    · rintro ⟨t, ⟨⟨ht, -⟩, hon⟩, hrel, hincludes⟩
      rw [includes_without_inert hinert ht (hdeclares t hon)] at hincludes
      exact ⟨t, ⟨ht, hon⟩, hrel, hincludes⟩
    · rintro ⟨t, ⟨ht, hon⟩, hrel, hincludes⟩
      -- a tuple that the subject holds the relation by is found
      have hfinds : q.schema.finds stored q.subject t = true := by
        simp [Schema.finds, hdeclares t hon, hincludes]
      refine ⟨t, ⟨⟨ht, keep_of_finds hinert ht hfinds⟩, hon⟩, hrel, ?_⟩
      rwa [includes_without_inert hinert ht (hdeclares t hon)]
  · unfold holdsViaUserset
    rw [tuplesOn_overTuples, tuplesOn_overTuples, hf]
    rfl

/-- **Parents stay**, since the schema admits what leads to them. -/
theorem parents_without_inert
    (hr : q.schema.relation? e.type relation = some r) :
    (q.overTuples (stored.filter keep) []).parents e r
      = (q.overTuples stored []).parents e r := by
  have hagree : AgreeOn
      (fun t => !t.isUserset && r.directTypes.contains t.subjectType)
      ((stored.filter keep).filter (TupleFilter.onRelation e r.name).admits)
      (stored.filter (TupleFilter.onRelation e r.name).admits) := by
    refine AgreeOn.filter_iff.mpr (AgreeOn.of_filter fun t ht hleads => ?_)
    simp only [Bool.and_eq_true, Bool.not_eq_true', List.contains_iff_mem,
      TupleFilter.admits_onRelation] at hleads
    obtain ⟨⟨hplain, htype⟩, he, hrel⟩ := hleads
    exact keep_of_admitted hinert ht (Schema.relationshipFault?_of_parent hr he
      (hrel.trans (Schema.name_of_relation? hr)) hplain htype)
  unfold parents
  rw [tuplesOn_overTuples, tuplesOn_overTuples, List.append_nil,
    List.append_nil]
  cases q.resolver.tuples (.onRelation e r.name) with
  | error f => rfl
  | ok _ =>
    exact congrArg (fun tuples : List Tuple => Except.ok
      (ascending EntityRef.sortKey (tuples.map Tuple.subjectEntity))) hagree

end Inert

/-- **An evaluation comes to the same without inert tuples**, for rules
whose parents have what they are asked for. -/
theorem compares_without_inert (q : Evaluation) {stored : List Tuple}
    {keep : Tuple → Bool} {tuples : List Tuple}
    (hreads : q.resolver.ReadsAlike tuples) (hs : q.schema.FindsMembers)
    (hinert : ∀ t ∈ stored, keep t = false →
      q.schema.isInert stored q.subject t = true) :
    (q.overTuples (stored.filter keep) []).Compares Eq q.schema.FindsMembersOn
      (q.overTuples stored []) where
  schema := rfl
  passes := {
    error := fun _ => rfl
    or := fun hx hy => by rw [hx, hy]
    and := fun hx hy => by rw [hx, hy]
    within := fun _ _ _ h => by rw [h]
    located := fun _ _ _ h => by rw [h] }
  closed := hs.isClosed
  not _ _ _ h := by rw [h]
  notWith _ _ _ h := by rw [h]
  direct _ hr := holdsDirectly_without_inert hinert hr
  userset _ hr := holdsViaUserset_without_inert hinert hreads hr
  fallback hmembers hr htype hp := by
    -- the type of the parent declares a relation, as it has no permission
    obtain ⟨other, hother⟩ := hmembers.exists_relation? hr htype hp
    exact holdsDirectly_without_inert hinert hother
  search {e relation permission r p p'} _ hr hp := by
    rw [parents_without_inert hinert hr]
    cases hparents : (q.overTuples stored []).parents e r with
    | error f => rfl
    | ok parents =>
      refine Outcome.Settles.eq_of_none (Outcome.Settles.anyM ?_)
      exact fun parent hparent =>
        .inl (hp parent (mem_directTypes_of_parents hparents hparent))
  satisfies _ _ _ := rfl

end Evaluation

namespace Resolver

/-- **A check comes to the same without inert tuples** of the schema that
it means, if that is a compiled one, the reads of tuples fail alike and the
check brings no tuples. -/
theorem check_without_inert {r : Resolver} {request : CheckRequest}
    (hcontextual : request.contextual = []) {stored : List Tuple}
    (hreads : r.ReadsAlike stored) {keep : Tuple → Bool}
    (hcompiled : ∀ schema, r.resolveSchema request.version = .ok schema →
      schema.FindsMembers)
    (hinert : ∀ schema, r.resolveSchema request.version = .ok schema →
      ∀ t ∈ stored, keep t = false →
        schema.isInert stored request.subject t = true) :
    (r.overTuples (stored.filter keep)).check request = r.check request := by
  have hstored : r.check request = (r.overTuples stored).check request := by
    rw [hreads.overTuples_eq]
  rw [hstored]
  refine Outcome.Settles.eq_of_none ?_
  refine Outcome.Settles.bind (.refl _) fun _ _ => ?_
  refine Outcome.Settles.bind (.refl _) fun schema hs => .inl ?_
  have hmembers : schema.FindsMembers := hcompiled schema hs
  have hcompares := (r.evaluation schema request).compares_without_inert
    hreads hmembers (hinert schema hs)
  have hevaluation : ∀ stored,
      (r.overTuples stored).evaluation schema request
        = (r.evaluation schema request).overTuples stored [] := by
    intro stored
    unfold evaluation Evaluation.overTuples
    rw [hcontextual]
  rw [← hevaluation, ← hevaluation] at hcompares
  exact compares_checkInSchema hcompares rfl rfl rfl fun p hp => hmembers.on hp

end Resolver

end Entitlement
