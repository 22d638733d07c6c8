import Entitlement.Proofs.Access.Value
import Entitlement.Proofs.Access.Descent
import Entitlement.Proofs.Service.History

/-!
# What is kept ready does not show

A coherent service answers a query as the service does that has the same
settings, store and faults and keeps nothing ready, its `Service.bare`:
their resolvers are one and the same (`Service.Coherent.resolver_eq`).
A query changes only what is kept ready, so many queries in a row are all
answered by one resolver.

What that resolver reads are the `Service.facts` of the tenant. Its reads
fail only if they are disturbed.
-/

namespace Entitlement

/-! ## Reads -/

/-- A read that succeeds returns what was asked for. -/
theorem eq_of_unlessFaulty {α : Type} {reason : Option String} {read a : α}
    (h : unlessFaulty reason read = .ok a) : read = a := by
  unfold unlessFaulty at h
  split at h
  · exact Except.ok.inj h
  · cases h

namespace Store

variable {s : Store} {timeout : Option Nat} {tenant : String}
  {filter : TupleFilter}

theorem readTuples_of_queryTuples {faults : ReadFaults} {tuples : List Tuple}
    (h : s.queryTuples faults timeout tenant filter = .ok tuples) :
    s.readTuples tenant filter = tuples := by
  unfold queryTuples at h
  split at h
  · cases h
  · exact eq_of_unlessFaulty h

/-- Without faults a read succeeds in time. -/
theorem queryTuples_of_no_faults :
    s.queryTuples {} timeout tenant filter
      = .ok (s.readTuples tenant filter) := by
  cases timeout <;> rfl

/-! What a read returns depends on the part of the tenant's data that it is
about, and on nothing else in the store. -/

variable {s' : Store}

theorem queryTuples_eq_of_tuples
    (h : (s'.tenant tenant).tuples = (s.tenant tenant).tuples)
    (faults : ReadFaults) (timeout : Option Nat) :
    s'.queryTuples faults timeout tenant
      = s.queryTuples faults timeout tenant := by
  funext filter
  unfold queryTuples readTuples
  rw [h]

theorem queryAttributes_eq_of_attributes
    (h : (s'.tenant tenant).attributes = (s.tenant tenant).attributes)
    (faults : ReadFaults) :
    s'.queryAttributes faults tenant = s.queryAttributes faults tenant := by
  funext e
  unfold queryAttributes readAttributes
  rw [h]

theorem read_eq_of_schemas
    (h : (s'.tenant tenant).schemas = (s.tenant tenant).schemas)
    (cache : SchemaCache) (check : ExpressionCheck) :
    cache.read check s' tenant = cache.read check s tenant := by
  funext version
  unfold SchemaCache.read readSchema latestSchema
  rw [h]

end Store

namespace Service

variable {engine : ExpressionEngine} {s : Service engine}

/-! ## Tenants -/

theorem requireTenant_of_blank {tenant : String}
    (h : isBlankText tenant = true) :
    requireTenant tenant = .error (.failure (.blankField "tenant_id")) := by
  have hfields : requireFields [("tenant_id", tenant)]
      = .error (.blankField "tenant_id") := by
    simp [requireFields, h]
  unfold requireTenant
  rw [hfields]
  rfl

theorem requireTenant_of_not_blank {tenant : String}
    (h : isBlankText tenant = false) : requireTenant tenant = .ok () := by
  have hfields : requireFields [("tenant_id", tenant)] = .ok () := by
    simp [requireFields, h]
  unfold requireTenant
  rw [hfields]
  rfl

theorem not_blank_of_requireTenant {tenant : String}
    (h : requireTenant tenant = .ok ()) : isBlankText tenant = false := by
  cases hblank : isBlankText tenant with
  | false => rfl
  | true =>
    rw [requireTenant_of_blank hblank] at h
    cases h

/-! ## Without what is kept ready -/

/-- The service with nothing kept ready. -/
def bare (s : Service engine) : Service engine where
  settings := s.settings
  store := s.store
  faults := s.faults

/-- **A coherent service answers from its store alone.** -/
theorem Coherent.resolver_eq (h : s.Coherent) (tenant : String) :
    s.resolver tenant = s.bare.resolver tenant := by
  have hschema : s.schemas.read engine.refusal? s.store tenant
      = ({} : SchemaCache).read engine.refusal? s.store tenant :=
    funext (h.schemas.read_eq h.readsBack tenant)
  have hholds : s.programs.evaluate
      = (ProgramCache.empty : ProgramCache engine).evaluate := by
    rw [ProgramCache.evaluate_eq h.programs,
      ProgramCache.evaluate_eq ProgramCache.sound_empty]
  unfold resolver resolverWithin
  rw [hschema, hholds]
  rfl

/-- Keeping ready what a query uses changes nothing else. -/
@[simp] theorem bare_remember (s : Service engine) (tenant : String)
    (version : Option String) : (s.remember tenant version).bare = s.bare := by
  unfold remember
  split <;> rfl

/-- What the service shows of the outcome of a query. -/
def showQuery {α : Type} (shown : α → Answer) : Except Failure α → Answer
  | .ok a => shown a
  | .error f => .error (.failure f)

/-- What a query answers is seen from what is shown, unless it may be taken
for an error. -/
theorem showQuery_eq_iff {α : Type} {shown : α → Answer}
    (hinj : ∀ a b, shown a = shown b → a = b)
    (hshown : ∀ a e, shown a ≠ .error e) {x : Except Failure α} {a : α} :
    showQuery shown x = shown a ↔ x = .ok a := by
  cases x with
  | ok b =>
    rw [showQuery, Except.ok.injEq]
    exact ⟨hinj b a, congrArg shown⟩
  | error f =>
    rw [showQuery]
    exact iff_of_false (hshown a _).symm (by simp)

theorem fst_answer {α : Type} (s : Service engine) (tenant : String)
    (version : Option String) (query : Resolver → Except Failure α)
    (shown : α → Answer) :
    (s.answer tenant version query shown).1
      = showQuery shown
          (query ((s.remember tenant version).resolver tenant)) := by
  unfold Service.answer
  simp only
  cases query ((s.remember tenant version).resolver tenant) <;> rfl

/-- **A query is answered from the store**, and only what is kept ready
changes. -/
theorem Coherent.answer_eq {α : Type} (h : s.Coherent) (tenant : String)
    (version : Option String) (query : Resolver → Except Failure α)
    (shown : α → Answer) :
    s.answer tenant version query shown
      = (showQuery shown (query (s.bare.resolver tenant)),
          s.remember tenant version) := by
  unfold Service.answer
  simp only
  rw [(h.remember tenant version).resolver_eq, bare_remember]
  cases query (s.bare.resolver tenant) <;> rfl

/-- So is a check. -/
theorem Coherent.fst_apply_check (h : s.Coherent) (request : CheckRequest) :
    (s.apply (.check request)).1
      = showQuery .allowed ((s.resolver request.tenant).check request) := by
  show (s.answer request.tenant request.version (·.check request)
    .allowed).1 = _
  rw [h.answer_eq, h.resolver_eq]

/-! ## What is stored -/

/-- The service with other data for a tenant. -/
def withData (s : Service engine) (tenant : String) (data : TenantData) :
    Service engine :=
  { s with store := s.store.setTenant tenant data }

/-- **What is stored for a tenant**, as queries read it. -/
def facts (s : Service engine) (tenant : String) : Facts where
  tuples := (s.store.tenant tenant).tuples
  attributes e := Store.attributeValues (s.store.readAttributes tenant e)

theorem tuples_resolver (s : Service engine) (tenant : String) :
    (s.resolver tenant).tuples
      = s.store.queryTuples s.faults s.settings.engine.timeout.toNat tenant :=
  rfl

theorem attributes_resolver (s : Service engine) (tenant : String) :
    (s.resolver tenant).attributes
      = s.store.queryAttributes s.faults tenant :=
  rfl

/-- Whatever is read is stored. -/
theorem reads_facts (s : Service engine) (tenant : String) :
    (s.resolver tenant).Reads (s.facts tenant) := by
  refine ⟨?_, fun h => (eq_of_unlessFaulty h).symm⟩
  intro filter tuples h t
  rw [tuples_resolver] at h
  rw [← Store.readTuples_of_queryTuples h, Store.readTuples, List.mem_filter]
  rfl

/-- **Without faults no read fails.** -/
theorem not_failsToRead (hf : s.faults = {}) (tenant : String) (f : Failure) :
    ¬ (s.resolver tenant).FailsToRead f := by
  rintro (⟨filter, h⟩ | ⟨e, h⟩)
  · rw [tuples_resolver, hf] at h
    cases h
  · rw [attributes_resolver, hf] at h
    cases h

/-- So none takes too long. -/
theorem inTime_resolver (hf : s.faults = {}) (tenant : String) :
    (s.resolver tenant).InTime :=
  fun _ => not_failsToRead hf tenant _

end Service

end Entitlement
