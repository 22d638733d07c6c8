import Entitlement.Proofs.Access.Contextual
import Entitlement.Proofs.Service.Listing
import Entitlement.Proofs.Service.OtherTuples

/-!
# Queries that bring tuples

Five kinds of queries may bring tuples of their own: a check, a check of
many permissions, the question for all permissions of a subject, and the
two lookups, page by page. What is said of such tuples is said of all of
these, so `Query` makes them one thing, which a resolver is asked
(`Query.ask`) and which is an operation of a service (`Query.operation`).
A coherent service answers what its resolver is asked
(`Service.Coherent.fst_apply_query`).

For the service that answers it, a query with its tuples is the same as to
write the tuples first and to ask without them
(`Service.brought_tuples_count_as_stored`).
-/

namespace Entitlement

/-- **A question that may bring tuples.** -/
inductive Query
  | check (request : CheckRequest)
  | checkMultiple (request : CheckRequest) (permissions : List String)
  | subjectPermission (request : SubjectPermissionRequest)
  | lookup (l : Lookup) (page : PageRequest)

namespace Query

/-- The tenant that is asked about. -/
def tenant : Query → String
  | check request => request.tenant
  | checkMultiple request _ => request.tenant
  | subjectPermission request => request.tenant
  | lookup l _ => l.tenant

/-- The tuples of the query. -/
def contextual : Query → List Tuple
  | check request => request.contextual
  | checkMultiple request _ => request.contextual
  | subjectPermission request => request.contextual
  | lookup l _ => l.contextual

/-- The query with other tuples. -/
def withContextual (q : Query) (contextual : List Tuple) : Query :=
  match q with
  | check request => check { request with contextual }
  | checkMultiple request permissions =>
    checkMultiple { request with contextual } permissions
  | subjectPermission request => subjectPermission { request with contextual }
  | lookup l page => lookup (l.withContextual contextual) page

/-- The operation that asks it. -/
def operation : Query → Operation
  | check request => .check request
  | checkMultiple request permissions => .checkMultiple request permissions
  | subjectPermission request => .subjectPermission request
  | lookup l page => l.operation page

/-- **What a resolver answers**, shown as a service shows it. Different
outcomes are shown differently. -/
def ask (r : Resolver) : Query → Answer
  | check request => Service.showQuery .allowed (r.check request)
  | checkMultiple request permissions =>
    Service.showQuery .permissions (r.checkMultiple request permissions)
  | subjectPermission request =>
    Service.showQuery .permissions (r.subjectPermission request)
  | lookup l page => Service.showQuery .page (l.ask r page)

@[simp] theorem tenant_withContextual (q : Query) (contextual : List Tuple) :
    (q.withContextual contextual).tenant = q.tenant := by
  cases q with
  | lookup l page => cases l <;> rfl
  | _ => rfl

/-- **A query is answered alike** where every check and every search for
candidates is. -/
theorem ask_of_answersAlike {r r' : Resolver} {q : Query}
    {contextual' : List Tuple}
    (h : r.AnswersAlike r' q.contextual contextual') :
    (q.withContextual contextual').ask r' = q.ask r := by
  cases q with
  | check request => exact congrArg (Service.showQuery _) h.check_eq
  | checkMultiple request permissions =>
    exact congrArg (Service.showQuery _) (h.checkMultiple_eq permissions)
  | subjectPermission request =>
    exact congrArg (Service.showQuery _) h.subjectPermission_eq
  | lookup l page => exact congrArg (Service.showQuery _) (h.ask_eq page)

/-- **A query depends on which tuples there are**, stored or brought. -/
theorem ask_of_mem_iff {r : Resolver} {stored stored' contextual' : List Tuple}
    (hr : r.ReadsAll stored) {q : Query}
    (hmem : ∀ t, t ∈ stored' ++ contextual' ↔ t ∈ stored ++ q.contextual) :
    (q.withContextual contextual').ask (r.overTuples stored') = q.ask r :=
  ask_of_answersAlike (Resolver.answersAlike_of_mem_iff hr hmem)

end Query

namespace Service

variable {engine : ExpressionEngine} {s : Service engine}

/-- **A coherent service answers a query from its resolver.** -/
theorem Coherent.fst_apply_query (h : s.Coherent) (q : Query) :
    (s.apply q.operation).1 = q.ask (s.resolver q.tenant) := by
  rw [h.resolver_eq]
  cases q with
  | check request =>
    exact congrArg Prod.fst (h.answer_eq request.tenant request.version
      (·.check request) .allowed)
  | checkMultiple request permissions =>
    exact congrArg Prod.fst (h.answer_eq request.tenant request.version
      (·.checkMultiple request permissions) .permissions)
  | subjectPermission request =>
    exact congrArg Prod.fst (h.answer_eq request.tenant request.version
      (·.subjectPermission request) .permissions)
  | lookup l page => exact congrArg Prod.fst (h.apply_operation_eq l page)

/-- So it does from the resolver over what is stored. -/
theorem Coherent.fst_apply_query_overTuples (h : s.Coherent) (q : Query) :
    (s.apply q.operation).1
      = q.ask ((s.resolver q.tenant).overTuples (s.facts q.tenant).tuples) :=
  (h.fst_apply_query q).trans
    (congrArg (q.ask ·) (resolver_eq_overTuples s q.tenant))

/-- Over other stored tuples it answers from the resolver over these. -/
theorem Coherent.fst_apply_query_withTuples (h : s.Coherent) {q : Query}
    {tenant : String} (htenant : q.tenant = tenant) (tuples : List Tuple) :
    ((s.withTuples tenant tuples).apply q.operation).1
      = q.ask ((s.resolver tenant).overTuples tuples) := by
  rw [(h.withTuples tenant tuples).fst_apply_query, htenant,
    resolver_withTuples]

/-- A coherent service decides a check over what it has stored. -/
theorem Coherent.apply_check_iff (h : s.Coherent) {request : CheckRequest}
    {b : Bool} :
    (s.apply (.check request)).1 = .allowed b ↔
      ((s.resolver request.tenant).overTuples
          (s.facts request.tenant).tuples).check request = .ok b := by
  rw [show (s.apply (.check request)).1 = _
    from h.fst_apply_query_overTuples (.check request)]
  exact showQuery_allowed_eq_iff

/-- Over other tuples it decides the check over these. -/
theorem Coherent.apply_check_withTuples_iff (h : s.Coherent)
    {request : CheckRequest} {tenant : String}
    (htenant : request.tenant = tenant) {tuples : List Tuple} {b : Bool} :
    ((s.withTuples tenant tuples).apply (.check request)).1 = .allowed b ↔
      ((s.resolver tenant).overTuples tuples).check request = .ok b := by
  rw [show ((s.withTuples tenant tuples).apply (.check request)).1 = _
    from h.fst_apply_query_withTuples (q := .check request) htenant tuples]
  exact showQuery_allowed_eq_iff

/-! ## Tuples that are brought and tuples that are stored -/

/-- **Tuples that a query brings count as if they were stored.** Where no
read of tuples fails, all that a resolver answers to a query depends on is
which tuples there are, so it answers the same if some of them are stored
and not brought, in any order and however often, its failures and the
tokens of its pages included. So it is with a service in every state that
it can come to, if its reads are not disturbed. In particular, to bring
tuples with a query is as good as to write them first, if none has an empty
subject relation, which a write would leave out. -/
theorem brought_tuples_count_as_stored :
    (∀ (r : Resolver) stored, r.ReadsAll stored →
      ∀ (q : Query) stored' contextual',
        (∀ t, t ∈ stored' ++ contextual' ↔ t ∈ stored ++ q.contextual) →
        (q.withContextual contextual').ask (r.overTuples stored')
          = q.ask r) ∧
    (∀ settings events,
      let s := ({ settings } : Service engine).after events
      s.faults = {} → ∀ q : Query,
        (∀ stored' contextual',
          (∀ t, t ∈ stored' ++ contextual' ↔
            t ∈ (s.facts q.tenant).tuples ++ q.contextual) →
          ((s.withTuples q.tenant stored').apply
              (q.withContextual contextual').operation).1
            = (s.apply q.operation).1) ∧
        ((∀ t ∈ q.contextual, t.subjectRelation ≠ some "") →
          (s.apply (.writeRelationships q.tenant q.contextual)).1 = .done →
          ((s.apply (.writeRelationships q.tenant q.contextual)).2.apply
              (q.withContextual []).operation).1
            = (s.apply q.operation).1)) := by
  refine ⟨fun r stored hr q stored' contextual' => Query.ask_of_mem_iff hr,
    ?_⟩
  intro settings events s hf q
  have hs : s.Coherent := (coherent_new settings).after events
  have hr := readsAll_resolver hf q.tenant
  have hstored : ∀ stored' contextual',
      (∀ t, t ∈ stored' ++ contextual' ↔
        t ∈ (s.facts q.tenant).tuples ++ q.contextual) →
      (q.withContextual contextual').ask
          ((s.resolver q.tenant).overTuples stored')
        = (s.apply q.operation).1 := by
    intro stored' contextual' hmem
    rw [Query.ask_of_mem_iff hr hmem, hs.fst_apply_query]
  constructor
  · intro stored' contextual' hmem
    rw [hs.fst_apply_query_withTuples (q.tenant_withContextual contextual'),
      hstored stored' contextual' hmem]
  · intro hnormal hdone
    have hnormalize : q.contextual.map Tuple.normalize = q.contextual :=
      (List.map_congr_left fun t ht =>
        Tuple.normalize_eq_self (hnormal t ht)).trans (List.map_id' _)
    rw [withTuples_of_apply_write hdone, hnormalize,
      (hs.remember q.tenant none).fst_apply_query_withTuples
        (q.tenant_withContextual []), hs.resolver_remember]
    refine hstored _ _ fun t => ?_
    rw [List.append_nil, mem_insertAllBy_iff Tuple.isFaithfulKey,
      List.mem_append]

/-- Someone says to own a document. -/
def broughtTuple : Tuple :=
  ⟨"document", "e", "owner", "user", "u", none⟩

/-- Which documents they view. -/
def broughtQuery : Query :=
  .lookup (viewedDocuments.withContextual [broughtTuple]) {}

/-- Whether an answer is that something was done. -/
def isDone : Answer → Bool
  | .done => true
  | _ => false

theorem isDone_iff {answer : Answer} :
    isDone answer = true ↔ answer = .done := by
  cases answer <;> simp [isDone]

/-- They view it next to those that they own already, whether it is stored
that they own it, or it is brought with the query, or all that is stored is
brought instead. So they do after it is written. -/
theorem brought_tuple_counts_as_stored :
    let owned : List Tuple := [⟨"document", " ", "owner", "user", "u", none⟩,
      ⟨"document", "d", "owner", "user", "u", none⟩]
    (broughtQuery.withContextual []).ask
        ((blankService.resolver "t").overTuples (broughtTuple :: owned))
      = broughtQuery.ask (blankService.resolver "t") ∧
    ((blankService.withTuples "t" [broughtTuple]).apply
        (broughtQuery.withContextual owned).operation).1
      = (blankService.apply broughtQuery.operation).1 ∧
    ((blankService.apply (.writeRelationships "t" [broughtTuple])).2.apply
        (viewedDocuments.operation {})).1
      = (blankService.apply broughtQuery.operation).1 := by
  intro owned
  have hdone : (blankService.apply
      (.writeRelationships "t" [broughtTuple])).1 = .done :=
    isDone_iff.mp (by decide +kernel)
  have hstored : (blankService.facts "t").tuples = owned := by
    decide +kernel
  have hmem : ∀ t, t ∈ [broughtTuple] ++ owned ↔
      t ∈ (blankService.facts "t").tuples ++ [broughtTuple] := by
    intro t
    rw [hstored, List.mem_append, List.mem_append, or_comm]
  obtain ⟨hresolver, hservice⟩ :=
    @brought_tuples_count_as_stored Condition.engine
  obtain ⟨hmoved, hwritten⟩ :=
    hservice {} blankEvents faults_blankService broughtQuery
  refine ⟨?_, hmoved [broughtTuple] owned hmem, hwritten (by decide) hdone⟩
  refine hresolver _ _ (readsAll_resolver faults_blankService "t") _
    (broughtTuple :: owned) [] fun t => ?_
  rw [List.append_nil]
  exact hmem t

end Service

end Entitlement
