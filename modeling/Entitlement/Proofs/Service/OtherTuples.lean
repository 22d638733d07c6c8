import Entitlement.Proofs.Access.OtherTuples
import Entitlement.Proofs.Service.Transparency

/-!
# Services with other tuples

`Service.withTuples` is a service with other tuples stored for a tenant,
whatever the schema says of them. It answers from the resolver over these
tuples (`Service.resolver_withTuples`). To write tuples and to delete some
is to come to such a service.
-/

namespace Entitlement

/-- A subject relation that is not empty is kept. -/
theorem Tuple.normalize_eq_self {t : Tuple} (h : t.subjectRelation ≠ some "") :
    t.normalize = t := by
  obtain ⟨_, _, _, _, _, relation⟩ := t
  cases relation with
  | none => rfl
  | some relation =>
    have hne : relation.isEmpty = false := by simpa using h
    simp [normalize, hne]

namespace Service

variable {engine : ExpressionEngine} {s s' : Service engine}
  {tenant : String}

/-- The service with other tuples stored for a tenant. -/
def withTuples (s : Service engine) (tenant : String) (tuples : List Tuple) :
    Service engine :=
  s.withData tenant { s.store.tenant tenant with tuples }

/-- A read of stored tuples, over other ones. -/
theorem queryTuples_setTenant (store : Store) (faults : ReadFaults)
    (timeout : Option Nat) (tenant : String) (data : TenantData)
    (filter : TupleFilter) :
    (store.setTenant tenant data).queryTuples faults timeout tenant filter
      = (store.queryTuples faults timeout tenant filter).map fun _ =>
          data.tuples.filter filter.admits := by
  have hread : ∀ reason,
      unlessFaulty reason
          ((store.setTenant tenant data).readTuples tenant filter)
        = (unlessFaulty reason (store.readTuples tenant filter)).map fun _ =>
            data.tuples.filter filter.admits := by
    intro reason
    unfold Store.readTuples
    rw [Store.tenant_setTenant_self]
    cases reason <;> rfl
  unfold Store.queryTuples
  split
  · rfl
  · exact hread faults.tuples

/-- **The resolver of a service with other tuples** is the resolver over
these. -/
theorem resolver_withTuples (s : Service engine) (tenant : String)
    (tuples : List Tuple) :
    (s.withTuples tenant tuples).resolver tenant
      = (s.resolver tenant).overTuples tuples := by
  have hdata : (s.withTuples tenant tuples).store.tenant tenant
      = { s.store.tenant tenant with tuples } :=
    Store.tenant_setTenant_self ..
  have hschemas : ((s.withTuples tenant tuples).store.tenant tenant).schemas
      = (s.store.tenant tenant).schemas := by rw [hdata]
  have hattributes :
      ((s.withTuples tenant tuples).store.tenant tenant).attributes
        = (s.store.tenant tenant).attributes := by rw [hdata]
  have htuples : (s.withTuples tenant tuples).store.queryTuples s.faults
        s.settings.engine.timeout.toNat tenant
      = fun filter => (s.store.queryTuples s.faults
          s.settings.engine.timeout.toNat tenant filter).map fun _ =>
            tuples.filter filter.admits :=
    funext (queryTuples_setTenant s.store s.faults _ tenant _)
  show Resolver.mk _ _ _ _ _ _ = Resolver.mk _ _ _ _ _ _
  rw [Resolver.mk.injEq]
  exact ⟨rfl, rfl, Store.read_eq_of_schemas hschemas _ _, htuples,
    Store.queryAttributes_eq_of_attributes hattributes _, rfl⟩

/-- A service answers over the tuples that are stored. -/
theorem resolver_eq_overTuples (s : Service engine) (tenant : String) :
    s.resolver tenant
      = (s.resolver tenant).overTuples (s.store.tenant tenant).tuples := by
  have htuples : s.store.queryTuples s.faults
        s.settings.engine.timeout.toNat tenant
      = fun filter => (s.store.queryTuples s.faults
          s.settings.engine.timeout.toNat tenant filter).map fun _ =>
            (s.store.tenant tenant).tuples.filter filter.admits := by
    funext filter
    cases h : s.store.queryTuples s.faults s.settings.engine.timeout.toNat
        tenant filter with
    | error f => rfl
    | ok tuples =>
      exact congrArg Except.ok (Store.readTuples_of_queryTuples h).symm
  unfold Resolver.overTuples
  rw [tuples_resolver, ← htuples]
  rfl

theorem Coherent.withTuples (h : s.Coherent) (tenant : String)
    (tuples : List Tuple) : (s.withTuples tenant tuples).Coherent :=
  h.of_sameVersions (Store.sameVersions_setTenant s.store tenant _ rfl)

/-! ## Queries, writes and deletions -/

/-- What is kept ready does not show in what a resolver reads. -/
theorem Coherent.resolver_remember (h : s.Coherent) (tenant' : String)
    (version : Option String) :
    (s.remember tenant' version).resolver tenant = s.resolver tenant := by
  rw [(h.remember tenant' version).resolver_eq, bare_remember, h.resolver_eq]

/-- Without faults, a service reads all that is stored. -/
theorem readsAll_resolver (hf : s.faults = {}) (tenant : String) :
    (s.resolver tenant).ReadsAll (s.facts tenant).tuples := by
  intro filter
  rw [tuples_resolver, hf]
  exact Store.queryTuples_of_no_faults

/-- The reads of a service fail alike. -/
theorem readsAlike_resolver (s : Service engine) (tenant : String) :
    (s.resolver tenant).ReadsAlike (s.facts tenant).tuples := by
  -- whether a read fails does not depend on what it asks for
  have hunless : ∀ reason : Option String,
      (∀ filter, unlessFaulty reason (s.store.readTuples tenant filter)
        = .ok ((s.facts tenant).tuples.filter filter.admits)) ∨
      ∃ f, ∀ filter, unlessFaulty reason (s.store.readTuples tenant filter)
        = .error f := by
    intro reason
    cases reason with
    | none => exact .inl fun _ => rfl
    | some reason => exact .inr ⟨_, fun _ => rfl⟩
  unfold Resolver.ReadsAlike Resolver.ReadsAll
  rw [tuples_resolver]
  unfold Store.queryTuples
  split
  · exact .inr ⟨_, fun _ => rfl⟩
  · exact hunless s.faults.tuples

theorem withTuples_of_writeRelationships {tuples : List Tuple}
    (hs : s.writeRelationships tenant tuples = .ok s') :
    s' = s.withTuples tenant (insertAllBy Tuple.sortKey
      (s.facts tenant).tuples (tuples.map Tuple.normalize)) := by
  obtain ⟨-, store, -, -, hstore, rfl⟩ := writeRelationships_eq_ok_iff.mp hs
  obtain ⟨-, rfl⟩ := Store.writeTuples_eq_ok hstore
  rfl

/-- **A write that is done adds its tuples to those that are stored.** -/
theorem withTuples_of_apply_write {tuples : List Tuple}
    (h : (s.apply (.writeRelationships tenant tuples)).1 = .done) :
    (s.apply (.writeRelationships tenant tuples)).2
      = (s.remember tenant none).withTuples tenant
          (insertAllBy Tuple.sortKey (s.facts tenant).tuples
            (tuples.map Tuple.normalize)) := by
  have hfacts : (s.remember tenant none).facts tenant = s.facts tenant := by
    unfold facts
    rw [store_remember]
  rw [← hfacts]
  exact withTuples_of_writeRelationships (eq_ok_of_change_done h)

/-- Tuples that the latest schema admits and the store takes are written. -/
theorem Coherent.apply_write_eq_done (h : s.Coherent) {tuples : List Tuple}
    {schema : Schema} {store : Store} (hblank : isBlankText tenant = false)
    (hschema : (s.resolver tenant).resolveSchema none = .ok schema)
    (hadmitted : tuples.forM (checkRelationship schema) = .ok ())
    (hstore : s.store.writeTuples tenant (tuples.map Tuple.normalize)
      = .ok store) :
    (s.apply (.writeRelationships tenant tuples)).1 = .done := by
  have hread : (s.remember tenant none).readSchema tenant none
      = .ok schema := by
    unfold readSchema
    rw [requireTenant_of_not_blank hblank, h.resolver_remember, hschema]
    rfl
  have hwrite : (s.remember tenant none).writeRelationships tenant tuples
      = .ok { s.remember tenant none with store } := by
    refine writeRelationships_eq_ok_iff.mpr ⟨schema, store, hread,
      Outcome.forM_eq_ok_iff.mp hadmitted, ?_, rfl⟩
    rw [store_remember, hstore]
  simp only [Service.apply]
  rw [hwrite]
  rfl

/-- **A deletion leaves the tuples that its filter does not admit**, or
does nothing if it fails. -/
theorem withTuples_of_apply_delete (s : Service engine) (tenant : String)
    (filter : TupleFilter) :
    (s.apply (.deleteRelationships tenant filter)).2 = s ∨
      (s.apply (.deleteRelationships tenant filter)).2
        = s.withTuples tenant
            ((s.facts tenant).tuples.filter fun t => !filter.admits t) := by
  simp only [Service.apply, change]
  cases hs : s.deleteRelationships tenant filter with
  | error e => exact .inl rfl
  | ok result =>
    refine .inr ?_
    obtain ⟨store, hstore, heq⟩ := deleteRelationships_eq_ok hs
    obtain rfl := Store.deleteTuples_eq_ok hstore
    exact heq

end Service

end Entitlement
