import Entitlement.Proofs.Service.Grants
import Entitlement.Proofs.Service.Queries
import Entitlement.Proofs.Service.Typed

/-!
# Plain subjects

An empty subject relation is to mean that there is none. What is written
through a service has none then (`Tuple.normalize`), but the tuples that a
query brings are taken as they are. Almost everywhere the two sorts of tuples
count alike: whether a tuple is a userset, whom it names, and which parents it
leads to does not depend on it. Only whoever looks for usersets follows an
empty relation to the holders of the empty relation on its subject.

So nothing changes for a query if all its tuples are normalized, unless one of
them is followed there to a tuple on an empty relation (`Tuple.IsFollowed`).
No such tuple is ever stored, since a store refuses an empty field
(`Service.tuplesFit_after`), so the query itself has to bring it
(`Service.empty_subject_relations_mean_none`). If it does, the two sorts of
tuples may differ (`Service.empty_subject_relation_is_followed`).
-/

namespace Entitlement

/-! ## Normalized tuples -/

namespace Tuple

variable {t : Tuple}

/-- Without its empty subject relation a tuple is no more a userset than with
it. -/
theorem isUserset_normalize (t : Tuple) :
    t.normalize.isUserset = t.isUserset := by
  unfold isUserset normalize
  cases t.subjectRelation with
  | none => rfl
  | some relation =>
    by_cases h : relation = ""
    · rw [h]
      rfl
    · simp [Option.filter, h]

/-- **Whether an empty subject relation is followed** from a tuple: one of
some tuples is on the empty relation of its subject and grants it. -/
def IsFollowed (t : Tuple) (tuples : List Tuple) : Prop :=
  t.subjectRelation = some "" ∧ ∃ u ∈ tuples,
    u.isUserset = false ∧ u.relation = "" ∧ u.entity = t.subjectEntity

end Tuple

/-- A lookup has the same candidates from a normalized tuple. -/
theorem Lookup.extract_normalize (l : Lookup) (t : Tuple) :
    l.extract t.normalize = l.extract t := by
  cases l with
  | entities request => rfl
  | subjects request =>
    show (if t.normalize.isUserset then none else some t.subjectId) = _
    rw [Tuple.isUserset_normalize]
    rfl

/-- To filter tuples and to normalize them goes in any order. -/
theorem filter_map_normalize {p : Tuple → Bool}
    (hp : ∀ t, p t.normalize = p t) (tuples : List Tuple) :
    (tuples.map Tuple.normalize).filter p
      = (tuples.filter p).map Tuple.normalize := by
  rw [List.filter_map]
  exact congrArg (List.map _) (List.filter_congr fun t _ => hp t)

/-- Searches through lists come to the same if they do for each two of their
elements. -/
theorem Outcome.anyM_eq_of_forall₂ {α β ε : Type} {p : α → Except ε Bool}
    {p' : β → Except ε Bool} {xs : List α} {ys : List β}
    (h : List.Forall₂ (fun x y => p x = p' y) xs ys) :
    xs.anyM p = ys.anyM p' := by
  induction h with
  | nil => rfl
  | cons hxy _ ih => rw [List.anyM_cons, List.anyM_cons, hxy, ih]

/-! ## One evaluation -/

namespace Evaluation

/-- The evaluation with the tuples of the query normalized. -/
def normalized (q : Evaluation) : Evaluation :=
  { q with contextual := q.contextual.map Tuple.normalize }

variable {q : Evaluation} {stored : List Tuple} {e : EntityRef}
  {relation : String}

theorem isGrant_normalize (q : Evaluation) (e : EntityRef) (relation : String)
    (t : Tuple) :
    q.isGrant e relation t.normalize = q.isGrant e relation t := by
  unfold isGrant
  rw [Tuple.isUserset_normalize]
  rfl

/-- Who is granted a relation by which tuple does not change. -/
theorem holdsDirectly_normalized (q : Evaluation) (e : EntityRef)
    (relation : String) :
    q.normalized.holdsDirectly e relation = q.holdsDirectly e relation := by
  have hany : (q.contextual.map Tuple.normalize).any (q.isGrant e relation)
      = q.contextual.any (q.isGrant e relation) := by
    rw [List.any_map]
    exact congrArg q.contextual.any
      (funext fun t => q.isGrant_normalize e relation t)
  unfold holdsDirectly
  show (if (q.contextual.map Tuple.normalize).any (q.isGrant e relation)
    then _ else _) = _
  rw [hany]
  rfl

/-- The tuples on a relation of an entity, where the read is known. -/
theorem tuplesOn_of_read {tuples : Except Failure (List Tuple)}
    (h : q.resolver.tuples (.onRelation e relation) = tuples) :
    q.tuplesOn e relation = tuples.map fun stored =>
      stored ++ q.contextual.filter
        (TupleFilter.onRelation e relation).admits := by
  subst h
  show (q.resolver.tuples _ >>= fun _ => _) = _
  cases q.resolver.tuples (.onRelation e relation) <;> rfl

/-- Of the same tuples, those of the query are found normalized. -/
theorem tuplesOn_normalized_of_read {tuples : Except Failure (List Tuple)}
    (h : q.resolver.tuples (.onRelation e relation) = tuples) :
    q.normalized.tuplesOn e relation = tuples.map fun stored =>
      stored ++ (q.contextual.filter
        (TupleFilter.onRelation e relation).admits).map Tuple.normalize := by
  rw [tuplesOn_of_read (q := q.normalized) h,
    ← filter_map_normalize fun _ => rfl]
  rfl

/-- So a relation leads to the same parents. -/
theorem parents_normalized (q : Evaluation) (e : EntityRef)
    (relation : Relation) :
    q.normalized.parents e relation = q.parents e relation := by
  unfold parents
  rw [tuplesOn_normalized_of_read rfl, tuplesOn_of_read rfl]
  cases q.resolver.tuples (.onRelation e relation.name) with
  | error f => rfl
  | ok stored =>
    show Except.ok (ascending _ _) = Except.ok (ascending _ _)
    rw [List.filter_append, List.filter_append, List.map_append,
      List.map_append, filter_map_normalize ?_, List.map_map]
    · rfl
    · intro t
      rw [Tuple.isUserset_normalize]
      rfl

/-- A userset is searched alike, unless its relation is empty. -/
theorem holdsUserset_normalized {t : Tuple}
    (h : t.subjectRelation = some "" →
      q.holdsDirectly t.subjectEntity "" = .ok false) :
    q.normalized.holdsUserset t.normalize = q.holdsUserset t := by
  unfold holdsUserset
  cases hrel : t.subjectRelation with
  | none =>
    have hnone : t.normalize.subjectRelation = none := by
      simp [Tuple.normalize, hrel]
    rw [hnone]
  | some relation =>
    by_cases hempty : relation = ""
    · subst hempty
      have hnone : t.normalize.subjectRelation = none := by
        simp [Tuple.normalize, hrel]
      rw [hnone]
      exact (h hrel).symm
    · have hsome : t.normalize = t :=
        Tuple.normalize_eq_self (by simp [hrel, hempty])
      rw [hsome, hrel]
      exact q.holdsDirectly_normalized t.subjectEntity relation

/-- **Where a tuple is found whose empty subject relation is not followed**,
nobody holds that relation. -/
theorem holdsDirectly_of_not_isFollowed (hr : q.resolver.ReadsAlike stored)
    {tuples : List Tuple} (hok : q.tuplesOn e relation = .ok tuples)
    {t : Tuple} (hfollowed : ¬ t.IsFollowed (stored ++ q.contextual))
    (hrel : t.subjectRelation = some "") :
    q.holdsDirectly t.subjectEntity "" = .ok false := by
  rcases hr with hr | ⟨f, hf⟩
  · rw [holdsDirectly_of_readsAll hr, Except.ok.injEq, List.any_eq_false]
    intro u hu hgrants
    simp only [Tuple.grants, Bool.and_eq_true, Bool.not_eq_true', beq_iff_eq]
      at hgrants
    obtain ⟨⟨⟨hplain, hentity⟩, hrelation⟩, -⟩ := hgrants
    exact hfollowed ⟨hrel, u, hu, hplain, hrelation, hentity⟩
  · -- if every read fails, then no tuple is found
    rw [tuplesOn_of_read (hf _)] at hok
    cases hok

theorem holdsViaUserset_normalized (hr : q.resolver.ReadsAlike stored)
    (h : ∀ t ∈ q.contextual, ¬ t.IsFollowed (stored ++ q.contextual))
    (e : EntityRef) (relation : String) :
    q.normalized.holdsViaUserset e relation = q.holdsViaUserset e relation := by
  unfold holdsViaUserset
  rw [tuplesOn_normalized_of_read rfl, tuplesOn_of_read rfl]
  cases hread : q.resolver.tuples (.onRelation e relation) with
  | error f => rfl
  | ok found =>
    have hok := tuplesOn_of_read hread
    refine Outcome.anyM_eq_of_forall₂ (List.rel_append ?_ ?_)
    · -- stored tuples stay as they are
      refine List.forall₂_same.mpr fun t _ => ?_
      unfold holdsUserset
      cases t.subjectRelation with
      | none => rfl
      | some relation =>
        exact q.holdsDirectly_normalized t.subjectEntity relation
    · refine List.forall₂_map_left_iff.mpr (List.forall₂_same.mpr ?_)
      intro t ht
      refine holdsUserset_normalized fun hrel => ?_
      exact holdsDirectly_of_not_isFollowed hr hok
        (h t (List.mem_filter.mp ht).1) hrel

/-- **An evaluation is the same with normalized tuples**, unless one of them
is followed by its empty subject relation. -/
theorem settles_normalized (hr : q.resolver.ReadsAlike stored)
    (h : ∀ t ∈ q.contextual, ¬ t.IsFollowed (stored ++ q.contextual)) :
    q.normalized.Settles (fun _ => False) (fun _ _ => True) q where
  schema := rfl
  direct e relation := .inl (q.holdsDirectly_normalized e relation)
  userset e relation := .inl (holdsViaUserset_normalized hr h e relation)
  parents e relation _ := .inl (q.parents_normalized e relation)
  satisfies _ _ _ := .refl _

end Evaluation

/-- **Every query is answered alike with normalized tuples**, unless one of
them is followed by its empty subject relation. -/
theorem Resolver.answersAlike_normalized {r : Resolver}
    {stored contextual : List Tuple} (hr : r.ReadsAlike stored)
    (h : ∀ t ∈ contextual, ¬ t.IsFollowed (stored ++ contextual)) :
    r.AnswersAlike r contextual (contextual.map Tuple.normalize) where
  schema := rfl
  defaultPageSize := rfl
  check schema request hrequest := by
    subst hrequest
    have hcheck : Outcome.Settles (fun _ => False)
        (r.checkInSchema schema { request with
          contextual := request.contextual.map Tuple.normalize })
        (r.checkInSchema schema request) :=
      settles_checkInSchema
        (Evaluation.settles_normalized (q := r.evaluation schema request) hr h)
        (fun _ _ _ => id) (fun _ _ _ => trivial) rfl rfl rfl
    exact hcheck.eq_of_none
  candidates l _ := by
    unfold candidates
    refine bind_congr fun found => congrArg Except.ok ?_
    rw [filter_map_normalize fun _ => rfl, List.filterMap_append,
      List.filterMap_append, List.filterMap_map]
    have hextract : l.extract ∘ Tuple.normalize = l.extract :=
      funext l.extract_normalize
    rw [hextract]

/-! ## Stored tuples -/

namespace Store

/-- **Whether the fields of all stored tuples fit.** -/
def TuplesFit (s : Store) : Prop :=
  ∀ tenant, ∀ t ∈ (s.tenant tenant).tuples, t.FieldsFit

namespace TuplesFit

variable {s s' : Store} {tenant : String}

/-- Data with tuples that fit may take the place of what was there. -/
theorem setTenant (h : s.TuplesFit) {data : TenantData}
    (hdata : ∀ t ∈ data.tuples, t.FieldsFit) :
    (s.setTenant tenant data).TuplesFit := by
  intro other
  by_cases hother : other = tenant
  · rw [hother, tenant_setTenant_self]
    exact hdata
  · rw [tenant_setTenant_of_ne s data hother]
    exact h other

theorem writeSchema (h : s.TuplesFit) {schema : StoredSchema}
    (hs : s.writeSchema tenant schema = .ok s') : s'.TuplesFit := by
  obtain ⟨-, rfl⟩ := writeSchema_eq_ok hs
  exact h.setTenant (h tenant)

/-- A store takes only tuples that fit. -/
theorem writeTuples (h : s.TuplesFit) {tuples : List Tuple}
    (hs : s.writeTuples tenant tuples = .ok s') : s'.TuplesFit := by
  obtain ⟨hfields, rfl⟩ := writeTuples_eq_ok hs
  refine h.setTenant fun t ht => ?_
  rcases mem_or_mem_of_mem_insertAllBy ht with ht | ht
  · exact h tenant t ht
  · exact Tuple.fieldsFit_of_checkFields (hfields t ht)

theorem deleteTuples (h : s.TuplesFit) {filter : TupleFilter} {n : Nat}
    (hs : s.deleteTuples tenant filter = .ok (n, s')) : s'.TuplesFit := by
  obtain rfl := deleteTuples_eq_ok hs
  exact h.setTenant fun t ht => h tenant t (List.mem_filter.mp ht).1

theorem writeAttributes (h : s.TuplesFit) {attributes : List (Attribute Json)}
    (hs : s.writeAttributes tenant attributes = .ok s') : s'.TuplesFit := by
  obtain rfl := writeAttributes_eq_ok hs
  exact h.setTenant (h tenant)

/-- **A store takes and keeps only tuples that fit.** -/
theorem perform (h : s.TuplesFit) {request : String × Request} {reply : Reply}
    (hs : s.perform request = .ok (reply, s')) : s'.TuplesFit := by
  obtain ⟨tenant, request⟩ := request
  cases request with
  | writeSchema schema =>
    obtain ⟨store, hstore, hs⟩ := Outcome.bind_eq_ok_iff.mp hs
    cases hs
    exact h.writeSchema hstore
  | writeTuples tuples =>
    obtain ⟨store, hstore, hs⟩ := Outcome.bind_eq_ok_iff.mp hs
    cases hs
    exact h.writeTuples hstore
  | writeAttributes attributes =>
    obtain ⟨store, hstore, hs⟩ := Outcome.bind_eq_ok_iff.mp hs
    cases hs
    exact h.writeAttributes hstore
  | deleteTuples filter =>
    obtain ⟨⟨n, store⟩, hstore, hs⟩ := Outcome.bind_eq_ok_iff.mp hs
    cases hs
    exact h.deleteTuples hstore
  | deleteAttributes entity name =>
    have hs : s' = (s.deleteAttributes tenant entity name).2 := by
      cases hs
      rfl
    rw [hs, snd_deleteAttributes]
    exact h.setTenant (h tenant)
  | readSchema | latestSchema =>
    obtain ⟨schema, -, hs⟩ := Outcome.bind_eq_ok_iff.mp hs
    cases hs
    exact h
  | schemaVersions | readTuples | readAttributes =>
    cases hs
    exact h

end TuplesFit

end Store

namespace Service

variable {engine : ExpressionEngine} {s : Service engine}

/-- Whether the fields of all tuples that a service stores fit. -/
def TuplesFit (s : Service engine) : Prop :=
  s.store.TuplesFit

/-- **Whatever happens to a service**, the tuples that it stores fit. -/
theorem tuplesFit_after (settings : Settings) (events : List Event) :
    (({ settings } : Service engine).after events).TuplesFit :=
  after_keeps (P := Store.TuplesFit) (fun h hs => h.perform hs)
    (fun _ _ ht => absurd ht List.not_mem_nil) events

/-- No stored tuple is on an empty relation, so only tuples of the query are
followed to. -/
theorem isFollowed_of_append {t : Tuple} {tenant : String}
    {contextual : List Tuple} (hs : s.TuplesFit)
    (h : t.IsFollowed ((s.facts tenant).tuples ++ contextual)) :
    t.IsFollowed contextual := by
  obtain ⟨hrel, u, hu, hplain, hempty, hentity⟩ := h
  refine ⟨hrel, u, ?_, hplain, hempty, hentity⟩
  refine (List.mem_append.mp hu).resolve_left fun hstored => ?_
  exact (hs tenant u hstored).nonempty u.relation (by simp) hempty

/-- **Empty subject relations mean none**, unless they are followed to an
empty relation. Where the reads of tuples fail alike, a resolver answers any
query the same if an empty subject relation is left out of each of its tuples,
failures and tokens included; but of none of them may the subject have a tuple
on its empty relation, stored or brought. So it is with a service in every
state that it can come to, whatever is disturbed, and there only the query
itself can bring such a tuple. -/
theorem empty_subject_relations_mean_none :
    (∀ (r : Resolver) stored, r.ReadsAlike stored → ∀ q : Query,
      (∀ t ∈ q.contextual, ¬ t.IsFollowed (stored ++ q.contextual)) →
      (q.withContextual (q.contextual.map Tuple.normalize)).ask r
        = q.ask r) ∧
    (∀ settings events,
      let s := ({ settings } : Service engine).after events
      ∀ q : Query, (∀ t ∈ q.contextual, ¬ t.IsFollowed q.contextual) →
        (s.apply
            (q.withContextual (q.contextual.map Tuple.normalize)).operation).1
          = (s.apply q.operation).1) := by
  have hresolver : ∀ (r : Resolver) stored, r.ReadsAlike stored →
      ∀ q : Query,
        (∀ t ∈ q.contextual, ¬ t.IsFollowed (stored ++ q.contextual)) →
        (q.withContextual (q.contextual.map Tuple.normalize)).ask r
          = q.ask r :=
    fun _ _ hr _ h =>
      Query.ask_of_answersAlike (Resolver.answersAlike_normalized hr h)
  refine ⟨hresolver, ?_⟩
  intro settings events s q h
  have hs : s.Coherent := (coherent_new settings).after events
  have hfit : s.TuplesFit := tuplesFit_after settings events
  rw [hs.fst_apply_query, hs.fst_apply_query, q.tenant_withContextual]
  exact hresolver _ _ (readsAlike_resolver s q.tenant) q fun t ht hfollowed =>
    h t ht (isFollowed_of_append hfit hfollowed)

/-- Someone says to own a document, with an empty subject relation. -/
def emptyOwnerTuple : Tuple :=
  ⟨"document", "d", "owner", "user", "u", some ""⟩

/-- They view the document with it, whether it is left out or not. -/
theorem empty_owner_is_an_owner :
    (Query.check (viewRequest [emptyOwnerTuple.normalize])).ask
        (Resolver.documentResolver.overTuples []) = .allowed true ∧
      (blankService.apply (Query.check (viewRequest
          [emptyUsersetTuple.normalize])).operation).1
        = (blankService.apply (Query.check (viewRequest
            [emptyUsersetTuple])).operation).1 := by
  obtain ⟨hresolver, hservice⟩ :=
    @empty_subject_relations_mean_none Condition.engine
  constructor
  · refine (hresolver (Resolver.documentResolver.overTuples []) [] ?_
      (.check (viewRequest [emptyOwnerTuple])) ?_).trans
        (congrArg (showQuery .allowed) (Resolver.check_eq ..))
    · exact .inl fun _ => rfl
    · rintro t ht ⟨-, u, hu, -, hempty, -⟩
      cases List.mem_singleton.mp hu
      exact absurd hempty (by decide)
  · refine hservice {} blankEvents (.check (viewRequest [emptyUsersetTuple])) ?_
    rintro t ht ⟨-, u, hu, -, hempty, -⟩
    cases List.mem_singleton.mp hu
    exact absurd hempty (by decide)

/-- **An empty subject relation is followed.** The owner of a document is a
team, with an empty subject relation, and someone is said to hold the empty
relation of the team. Then they view the document, and without the empty
subject relation they do not. -/
theorem empty_subject_relation_is_followed :
    let tuples := [emptyRelationTuple, emptyUsersetTuple]
    (Resolver.documentResolver.overTuples []).check (viewRequest tuples)
        = .ok true ∧
      (Resolver.documentResolver.overTuples []).check
          (viewRequest (tuples.map Tuple.normalize)) = .ok false :=
  ⟨Resolver.check_eq .., Resolver.check_eq ..⟩

end Service

end Entitlement
