import Entitlement.Proofs.Access.Comparison
import Entitlement.Proofs.Access.Lookup
import Entitlement.Proofs.Access.OtherTuples

/-!
# Tuples of a query count as if they were stored

A query may bring tuples, and wherever tuples are looked for, these are
looked through too: for who holds a relation, for parents and for the
candidates of a lookup. Each of these searches goes its own way, but where
no read fails, all that counts is which tuples there are in the stored ones
and those of the query together. So tuples may pass from the one to the
other, in any order and as often as one likes, and no check, no table of
permissions and no page of a lookup changes
(`Resolver.answersAlike_of_mem_iff`).

Whatever the reason is for which other tuples of a query do as well as its
own, it is enough to look at a check in a schema and at the candidates of a
lookup. `Resolver.AnswersAlike` is what has to be shown there, and the answers
of all queries follow.
-/

namespace Entitlement

/-- What is found in a list depends on which elements it has. -/
theorem any_eq_of_mem_iff {α : Type} {xs ys : List α}
    (h : ∀ x, x ∈ xs ↔ x ∈ ys) (p : α → Bool) : xs.any p = ys.any p := by
  rw [Bool.eq_iff_iff, List.any_eq_true, List.any_eq_true]
  simp only [h]

/-- So does who belongs to a subject. -/
theorem SubjectRef.includes_of_mem_iff {tuples tuples' : List Tuple}
    (h : ∀ t, t ∈ tuples ↔ t ∈ tuples') (entity : EntityRef)
    (s : SubjectRef) :
    s.includes tuples entity = s.includes tuples' entity := by
  unfold SubjectRef.includes
  cases s.relation with
  | none => rfl
  | some member => exact any_eq_of_mem_iff h _

/-! ## One evaluation -/

namespace Evaluation

variable {q : Evaluation} {stored stored' contextual' : List Tuple}
  (hr : q.resolver.ReadsAll stored)
  (hmem : ∀ t, t ∈ stored' ++ contextual' ↔ t ∈ stored ++ q.contextual)
include hr hmem

theorem holdsDirectly_of_mem_iff (e : EntityRef) (relation : String) :
    (q.overTuples stored' contextual').holdsDirectly e relation
      = q.holdsDirectly e relation := by
  have hr' : (q.overTuples stored' contextual').resolver.ReadsAll stored' :=
    hr.overTuples stored'
  rw [holdsDirectly_of_readsAll hr, holdsDirectly_of_readsAll hr']
  exact congrArg Except.ok (any_eq_of_mem_iff hmem _)

theorem holdsViaUserset_of_mem_iff (e : EntityRef) (relation : String) :
    (q.overTuples stored' contextual').holdsViaUserset e relation
      = q.holdsViaUserset e relation := by
  have hr' : (q.overTuples stored' contextual').resolver.ReadsAll stored' :=
    hr.overTuples stored'
  have hbelongs : SubjectRef.includes (stored' ++ contextual') q.subject
      = SubjectRef.includes (stored ++ q.contextual) q.subject :=
    funext (SubjectRef.includes_of_mem_iff hmem q.subject)
  rw [holdsViaUserset_of_readsAll hr, holdsViaUserset_of_readsAll hr']
  show Except.ok (List.any _ fun t : Tuple => t.subjectRelation.isSome &&
    t.subject.includes (stored' ++ contextual') q.subject) = _
  rw [hbelongs]
  refine congrArg Except.ok (any_eq_of_mem_iff (fun t => ?_) _)
  rw [List.mem_filter, List.mem_filter, ← hmem]
  rfl

theorem parents_of_mem_iff (e : EntityRef) (relation : Relation) :
    (q.overTuples stored' contextual').parents e relation
      = q.parents e relation := by
  have hr' : (q.overTuples stored' contextual').resolver.ReadsAll stored' :=
    hr.overTuples stored'
  unfold parents
  rw [tuplesOn_of_readsAll hr, tuplesOn_of_readsAll hr']
  refine congrArg Except.ok (ascending_eq_of_mem_iff EntityRef.isFaithfulKey
    fun parent => ?_)
  simp only [List.mem_map, List.mem_filter, ← hmem]
  rfl

/-- **An evaluation depends on which tuples there are**, stored or
brought. -/
theorem settles_of_mem_iff :
    (q.overTuples stored' contextual').Settles (fun _ => False)
      (fun _ _ => True) q where
  schema := rfl
  direct e relation := .inl (holdsDirectly_of_mem_iff hr hmem e relation)
  userset e relation := .inl (holdsViaUserset_of_mem_iff hr hmem e relation)
  parents e relation _ := .inl (parents_of_mem_iff hr hmem e relation)
  satisfies _ _ _ := .refl _

end Evaluation

/-! ## Checks -/

namespace Resolver

variable {r : Resolver} {stored stored' contextual' : List Tuple}

/-- **A check depends on which tuples there are**, stored or brought. -/
theorem checkInSchema_of_mem_iff (hr : r.ReadsAll stored)
    (request : CheckRequest)
    (hmem : ∀ t, t ∈ stored' ++ contextual' ↔ t ∈ stored ++ request.contextual)
    (schema : Schema) :
    (r.overTuples stored').checkInSchema schema
        { request with contextual := contextual' }
      = r.checkInSchema schema request := by
  have hevaluation := Evaluation.settles_of_mem_iff
    (q := r.evaluation schema request) hr hmem
  have hcheck : Outcome.Settles (fun _ => False)
      ((r.overTuples stored').checkInSchema schema
        { request with contextual := contextual' })
      (r.checkInSchema schema request) :=
    settles_checkInSchema hevaluation (fun _ _ _ => id)
      (fun _ _ _ => trivial) rfl rfl rfl
  exact hcheck.eq_of_none

end Resolver

/-! ## Queries -/

/-- The lookup with other tuples of the query. -/
def Lookup.withContextual (l : Lookup) (contextual : List Tuple) : Lookup :=
  match l with
  | entities request => entities { request with contextual }
  | subjects request => subjects { request with contextual }

/-- **Whether another resolver does the same with other tuples** of a query:
it has the same schemas, it comes to the same in every check, and it finds the
same candidates for every lookup. -/
structure Resolver.AnswersAlike (r r' : Resolver)
    (contextual contextual' : List Tuple) : Prop where
  schema : r'.schema = r.schema
  defaultPageSize : r'.defaultPageSize = r.defaultPageSize
  check : ∀ (schema : Schema) (request : CheckRequest),
    request.contextual = contextual →
      r'.checkInSchema schema { request with contextual := contextual' }
        = r.checkInSchema schema request
  candidates : ∀ l : Lookup, l.contextual = contextual →
    r'.candidates l.filter contextual' l.extract
      = r.candidates l.filter contextual l.extract

namespace Resolver.AnswersAlike

variable {r r' : Resolver} {contextual contextual' : List Tuple}

theorem resolveSchema_eq (h : r.AnswersAlike r' contextual contextual') :
    r'.resolveSchema = r.resolveSchema := by
  unfold resolveSchema
  rw [h.schema]

theorem check_eq {request : CheckRequest}
    (h : r.AnswersAlike r' request.contextual contextual') :
    r'.check { request with contextual := contextual' } = r.check request := by
  unfold Resolver.check
  simp only [h.check _ request rfl, h.resolveSchema_eq]
  rfl

/-- So it is with the checks of many permissions at once. -/
theorem checkEach_eq (h : r.AnswersAlike r' contextual contextual')
    (request : String → CheckRequest)
    (hrequest : ∀ permission, (request permission).contextual = contextual)
    (schema : Schema) (permissions : List String) :
    r'.checkEach schema
        (fun permission =>
          { request permission with contextual := contextual' }) permissions
      = r.checkEach schema request permissions := by
  unfold checkEach checkOne
  simp only [h.check schema _ (hrequest _)]
  rfl

theorem checkMultiple_eq {request : CheckRequest}
    (h : r.AnswersAlike r' request.contextual contextual')
    (permissions : List String) :
    r'.checkMultiple { request with contextual := contextual' } permissions
      = r.checkMultiple request permissions := by
  unfold checkMultiple
  rw [h.resolveSchema_eq]
  refine bind_congr fun schema => ?_
  exact h.checkEach_eq (fun permission => { request with permission })
    (fun _ => rfl) schema permissions

theorem subjectPermission_eq {request : SubjectPermissionRequest}
    (h : r.AnswersAlike r' request.contextual contextual') :
    r'.subjectPermission { request with contextual := contextual' }
      = r.subjectPermission request := by
  unfold subjectPermission
  rw [h.resolveSchema_eq]
  refine bind_congr fun _ => bind_congr fun schema => ?_
  cases schema.entity? request.entity.type with
  | none => rfl
  | some entity =>
    exact h.checkEach_eq request.toCheck (fun _ => rfl) schema
      (entity.permissions.map Permission.name)

/-- **So it is with a page of a lookup.** -/
theorem ask_eq {l : Lookup} (h : r.AnswersAlike r' l.contextual contextual')
    (page : PageRequest) :
    (l.withContextual contextual').ask r' page = l.ask r page := by
  have hcheck : ∀ schema id,
      r'.checkInSchema schema ((l.withContextual contextual').toCheck id)
        = r.checkInSchema schema (l.toCheck id) := by
    intro schema id
    cases l with
    | entities request => exact h.check schema (request.toCheck id) rfl
    | subjects request => exact h.check schema (request.toCheck id) rfl
  have hsame : (l.withContextual contextual').filter = l.filter ∧
      (l.withContextual contextual').contextual = contextual' ∧
      (l.withContextual contextual').extract = l.extract ∧
      (l.withContextual contextual').validate = l.validate ∧
      (l.withContextual contextual').version = l.version ∧
      (l.withContextual contextual').findPermission = l.findPermission := by
    cases l <;> exact ⟨rfl, rfl, rfl, rfl, rfl, rfl⟩
  obtain ⟨hfilter, hcontextual, hextract, hv, hversion, hp⟩ := hsame
  rw [Lookup.ask_eq, Lookup.ask_eq, hfilter, hcontextual, hextract, hv,
    hversion, hp, h.candidates l rfl, h.resolveSchema_eq]
  refine bind_congr fun _ => bind_congr fun schema => bind_congr fun _ =>
    bind_congr fun candidates => ?_
  unfold scan pageSize
  simp only [hcheck, h.defaultPageSize]

end Resolver.AnswersAlike

/-- **What is answered depends on which tuples there are**, stored or
brought. -/
theorem Resolver.answersAlike_of_mem_iff {r : Resolver}
    {stored stored' contextual contextual' : List Tuple}
    (hr : r.ReadsAll stored)
    (hmem : ∀ t, t ∈ stored' ++ contextual' ↔ t ∈ stored ++ contextual) :
    r.AnswersAlike (r.overTuples stored') contextual contextual' where
  schema := rfl
  defaultPageSize := rfl
  check schema request hrequest :=
    checkInSchema_of_mem_iff hr request (by rwa [hrequest]) schema
  candidates l _ := by
    have hr' : (r.overTuples stored').ReadsAll stored' := hr.overTuples stored'
    unfold candidates
    rw [hr, hr']
    refine congrArg Except.ok (ascending_eq_of_mem_iff isFaithfulKey_text
      fun id => ?_)
    simp only [← List.filter_append, List.mem_filterMap, List.mem_filter, hmem]

end Entitlement
