import Entitlement.Proofs.Access.Failures
import Entitlement.Proofs.Service.History

/-!
# When a check reports that something is missing

A schema that compiles refers to nothing that it does not declare, so a
check in it never trips over a name: if the permission exists, what can
fail is the run alone. This needs nothing of the tuples, which may have
been written for other versions of the schema, and nothing of the language
of expressions but that a text always compiles to the same.

Read the other way, a check of a service reports something as missing
exactly if what the request itself names is missing: the schema, the
entity type or the permission (`Service.check_reports_missing_iff`).
-/

namespace Entitlement

/-! ## Expressions -/

namespace Condition

/-- A condition that has no truth value was compiled nevertheless. -/
theorem ne_notCompiled_of_holds {c : Condition} {scope : Scope}
    {error : ConditionError} (h : c.holds scope = .error error)
    (text : String) : error ≠ .notCompiled text := by
  rintro rfl
  rcases Outcome.bind_eq_error_iff.mp h with h | ⟨value, -, h⟩
  · unfold evaluate at h
    split at h
    · cases h
    · cases h
  · split at h
    · cases h
    · cases h

/-- **The engine of CEL expressions with another reading of their
texts.** -/
def engineWith (compile : String → Except ConditionError Condition) :
    ExpressionEngine :=
  { engine with compile }

/-- An expression that compiled once compiles again. -/
theorem ne_notCompiled_of_evaluate
    {compile : String → Except ConditionError Condition} {text : String}
    (hc : (engineWith compile).refusal? text = none)
    {context : ConditionContext} {error : ConditionError}
    (h : (engineWith compile).evaluate text context = .error error)
    (other : String) : error ≠ .notCompiled other := by
  unfold ExpressionEngine.refusal? at hc
  rcases Outcome.bind_eq_error_iff.mp h with h | ⟨condition, -, h⟩
  · rw [h] at hc
    cases hc
  · exact ne_notCompiled_of_holds h other

end Condition

/-- **Whether a resolver asks an engine for the truth of expressions**, and
fails to read only for a reason of the store. -/
structure Resolver.RunsOn (r : Resolver) (engine : ExpressionEngine) :
    Prop where
  tuples : ∀ {filter f}, r.tuples filter = .error f → f.IsOfReading
  attributes : ∀ {e f}, r.attributes e = .error f → f.IsOfReading
  holds : r.holds = engine.evaluate

theorem Resolver.RunsOn.isRunning {r : Resolver}
    {compile : String → Except ConditionError Condition}
    (h : r.RunsOn (Condition.engineWith compile)) :
    r.IsRunning (Condition.engineWith compile).refusal? where
  tuples := h.tuples
  attributes := h.attributes
  holds := by
    intro text hc context error herror
    rw [h.holds] at herror
    exact Condition.ne_notCompiled_of_evaluate hc herror

/-! ## Reads of the store -/

namespace Store

theorem isOfReading_of_unlessFaulty {α : Type} {reason : Option String}
    {read : α} {f : Failure} (h : unlessFaulty reason read = .error f) :
    f.IsOfReading := by
  unfold unlessFaulty at h
  split at h
  · cases h
  · cases h
    exact Or.inl ⟨_, rfl⟩

theorem isOfReading_of_queryTuples {s : Store} {faults : ReadFaults}
    {timeout : Option Nat} {tenant : String} {filter : TupleFilter}
    {f : Failure} (h : s.queryTuples faults timeout tenant filter = .error f) :
    f.IsOfReading := by
  unfold queryTuples at h
  split at h
  · cases h
    exact Or.inr ⟨_, rfl⟩
  · exact isOfReading_of_unlessFaulty h

/-- **A version that a query means and the store does not have is reported
as missing.** -/
theorem isNotFound_of_meant {s : Store} {tenant : String}
    {version : Option String} {error : StoreError}
    (h : s.meant tenant version = .error error) :
    (Failure.ofStoreError error).isNotFound = true := by
  unfold meant at h
  split at h
  next name =>
    unfold readSchema at h
    split at h
    · cases h
    · cases h
      rfl
  next =>
    unfold latestSchema at h
    split at h
    · cases h
    · cases h
      rfl

end Store

namespace Service

variable {engine : ExpressionEngine} {s : Service engine}

/-! ## Checks of a service -/

/-- **Whether a tenant has a schema of a version that declares a
permission**, the latest if none is named. -/
def Declares (s : Service engine) (tenant : String) (version : Option String)
    (type permission : String) : Prop :=
  ∃ stored schema, s.store.meant tenant version = .ok stored ∧
    stored.compile engine.refusal? tenant = .ok schema ∧
    (schema.permission? type permission).isSome

/-- A coherent service asks the engine. -/
theorem Coherent.runsOn (h : s.Coherent) (timeout : Option Nat)
    (tenant : String) : (s.resolverWithin timeout tenant).RunsOn engine where
  tuples := Store.isOfReading_of_queryTuples
  attributes := Store.isOfReading_of_unlessFaulty
  holds := ProgramCache.evaluate_eq h.programs

/-- What a service declares does not depend on what it keeps ready. -/
theorem declares_remember {tenant : String} {version : Option String}
    {type permission : String} {other : String} {asked : Option String} :
    (s.remember other asked).Declares tenant version type permission ↔
      s.Declares tenant version type permission := by
  unfold Declares
  rw [store_remember]

/-- A query of a service fails as its resolver does. -/
theorem answer_eq_error_iff {α : Type} {tenant : String}
    {version : Option String} {query : Resolver → Except Failure α}
    {shown : α → Answer} (hshown : ∀ a e, shown a ≠ .error e) {f : Failure} :
    (s.answer tenant version query shown).1 = .error (.failure f) ↔
      query ((s.remember tenant version).resolver tenant) = .error f := by
  unfold answer
  simp only
  cases query ((s.remember tenant version).resolver tenant) with
  | ok a => simp [hshown]
  | error g => simp

theorem apply_check_eq_error_iff {request : CheckRequest} {f : Failure} :
    (s.apply (.check request)).1 = .error (.failure f) ↔
      ((s.remember request.tenant request.version).resolver
        request.tenant).check request = .error f :=
  answer_eq_error_iff (by simp)

end Service

/-- **A validated check of a permission that exists fails only in the
run**, if the schema compiles. -/
theorem Resolver.isOfRun_of_check {r : Resolver}
    {compile : String → Except ConditionError Condition}
    (hr : r.RunsOn (Condition.engineWith compile))
    {tenant version source : String} {createdAt : Int} {schema : Schema}
    (hc : compileSchema (Condition.engineWith compile).refusal? tenant version
      source createdAt = .ok schema) {request : CheckRequest}
    (hv : request.validate = .ok ())
    (hs : r.resolveSchema request.version = .ok schema)
    (hp : (schema.permission? request.entity.type
      request.permission).isSome) {f : Failure}
    (h : r.check request = .error f) : f.IsOfRun := by
  obtain ⟨p, hp⟩ := Option.isSome_iff_exists.mp hp
  rw [check_of_schema hv hs] at h
  exact isOfRun_of_checkInSchema hr.isRunning
    (Schema.resolves_of_compileSchema hc) hp h

namespace Service

variable {compile : String → Except ConditionError Condition}
  {s : Service (Condition.engineWith compile)} {request : CheckRequest}
  {f : Failure}

/-- A coherent service checks what it declares without missing anything. -/
theorem Coherent.isOfRun_of_check (h : s.Coherent)
    (hv : request.validate = .ok ())
    (hd : s.Declares request.tenant request.version request.entity.type
      request.permission)
    (hf : (s.resolver request.tenant).check request = .error f) :
    f.IsOfRun := by
  obtain ⟨stored, schema, hmeant, hcompile, hp⟩ := hd
  refine Resolver.isOfRun_of_check (h.runsOn _ request.tenant) hcompile hv
    ?_ hp hf
  rw [h.resolveSchema_eq, hmeant]
  exact hcompile

/-- A coherent service reports what it does not declare as missing, if its
stored versions compile. -/
theorem Coherent.exists_isNotFound_of_check (h : s.Coherent)
    (hstored : ∀ stored ∈ (s.store.tenant request.tenant).schemas,
      ∃ schema, stored.compile (Condition.engineWith compile).refusal?
        request.tenant = .ok schema)
    (hv : request.validate = .ok ())
    (hd : ¬ s.Declares request.tenant request.version request.entity.type
      request.permission) :
    ∃ f, (s.resolver request.tenant).check request = .error f ∧
      f.isNotFound = true := by
  rw [Resolver.check_of_validate hv]
  unfold resolver
  rw [h.resolveSchema_eq]
  cases hmeant : s.store.meant request.tenant request.version with
  | error error => exact ⟨_, rfl, Store.isNotFound_of_meant hmeant⟩
  | ok stored =>
    obtain ⟨schema, hcompile⟩ := hstored stored (Store.mem_of_meant hmeant)
    cases hfind : Resolver.findPermission schema request.entity.type
        request.permission with
    | ok p =>
      rw [Resolver.findPermission_eq_ok_iff] at hfind
      exact absurd ⟨stored, schema, hmeant, hcompile, by rw [hfind]; rfl⟩ hd
    | error f =>
      refine ⟨f, ?_, Resolver.isNotFound_of_findPermission hfind⟩
      show (stored.compile _ _ >>= _) = _
      rw [hcompile]
      show (Resolver.findPermission _ _ _ >>= _) = _
      rw [hfind]
      rfl

/-- **Validation is sound for checks.** In a schema that compiles, a
validated check of a permission that exists fails only in the run, however
texts of expressions are read and whatever the reads return. So does a
check of a service, whatever has happened to it; and if all versions that
its tenant has stored compile, it reports something as missing exactly if
the schema, the entity type or the permission that is asked for does not
exist. -/
theorem check_reports_missing_iff
    (compile : String → Except ConditionError Condition) :
    (∀ tenant version source createdAt schema,
      compileSchema (Condition.engineWith compile).refusal? tenant version
        source createdAt = .ok schema →
      ∀ r : Resolver, r.RunsOn (Condition.engineWith compile) →
      ∀ request : CheckRequest, request.validate = .ok () →
        r.resolveSchema request.version = .ok schema →
        (schema.permission? request.entity.type request.permission).isSome →
        ∀ f, r.check request = .error f → f.IsOfRun) ∧
    (∀ settings events,
      let s := ({ settings } : Service (Condition.engineWith compile)).after
        events
      ∀ request : CheckRequest, request.validate = .ok () →
        (s.Declares request.tenant request.version request.entity.type
            request.permission →
          ∀ f, (s.apply (.check request)).1 = .error (.failure f) →
            f.IsOfRun) ∧
        ((∀ stored ∈ (s.store.tenant request.tenant).schemas, ∃ schema,
            stored.compile (Condition.engineWith compile).refusal?
              request.tenant = .ok schema) →
          ((∃ f, (s.apply (.check request)).1 = .error (.failure f) ∧
              f.isNotFound = true) ↔
            ¬ s.Declares request.tenant request.version request.entity.type
              request.permission))) := by
  constructor
  · intro tenant version source createdAt schema hc r hr request hv hs hp f h
    exact Resolver.isOfRun_of_check hr hc hv hs hp h
  intro settings events s request hv
  -- a check remembers first, which changes neither the store nor coherence
  have hs : (s.remember request.tenant request.version).Coherent :=
    ((coherent_new settings).after events).remember _ _
  have hrun : s.Declares request.tenant request.version request.entity.type
        request.permission →
      ∀ f, (s.apply (.check request)).1 = .error (.failure f) →
        f.IsOfRun := by
    intro hd f hf
    exact hs.isOfRun_of_check hv (declares_remember.mpr hd)
      (apply_check_eq_error_iff.mp hf)
  refine ⟨hrun, fun hstored => ⟨?_, fun hd => ?_⟩⟩
  · rintro ⟨f, hf, hmissing⟩ hd
    rw [(hrun hd f hf).isNotFound_eq_false] at hmissing
    cases hmissing
  · rw [← store_remember request.tenant request.version] at hstored
    obtain ⟨f, hf, hmissing⟩ := hs.exists_isNotFound_of_check hstored hv
      fun h => hd (declares_remember.mp h)
    exact ⟨f, apply_check_eq_error_iff.mpr hf, hmissing⟩

/-- A document is viewed while it is open. -/
def documentSchema : Schema where
  tenant := "t"
  version := "v"
  source := "entity document { permission view = rule(open) }"
  rules := []
  entities := [{
    name := "document"
    relations := []
    attributes := []
    permissions := [⟨"view", .inline "open"⟩] }]
  createdAt := 0
  updatedAt := 0

/-- A reading of expressions that takes every text as a name. -/
def compileName (text : String) : Except ConditionError Condition :=
  .ok ⟨text, .ident text⟩

theorem compile_documentSchema :
    compileSchema (Condition.engineWith compileName).refusal? "t" "v"
      documentSchema.source 0 = .ok documentSchema :=
  Outcome.eq_ok_of_toOption (by decide +kernel)

/-- The schema is stored. -/
def documentEvents : List Event :=
  [.storeSchema "t" ⟨"v", documentSchema.source, 0⟩]

/-- The service that the schema was stored for. -/
def documentService : Service (Condition.engineWith compileName) :=
  ({} : Service _).after documentEvents

/-- A permission on a document. -/
def documentRequest (permission : String) : CheckRequest where
  tenant := "t"
  entity := ⟨"document", "d"⟩
  permission := permission
  subject := ⟨"user", "u"⟩

/-- Whether the document is open cannot be found out, so to view it fails
in the run. To edit it is missing. -/
theorem documentService_reports_missing :
    (∃ f, (documentService.resolver "t").check (documentRequest "view")
        = .error f ∧ f.IsOfRun) ∧
    (∃ f, (documentService.apply (.check (documentRequest "edit"))).1
        = .error (.failure f) ∧ f.isNotFound = true) := by
  have hs : documentService.Coherent := (coherent_new {}).after documentEvents
  have hmeant : documentService.store.meant "t" none
      = .ok ⟨"v", documentSchema.source, 0⟩ := rfl
  have hresolve : (documentService.resolver "t").resolveSchema none
      = .ok documentSchema := by
    unfold resolver
    rw [hs.resolveSchema_eq, hmeant]
    exact compile_documentSchema
  have hview : (documentService.resolver "t").check (documentRequest "view")
      = .error (.evaluating "document" "d" "view"
        (.expression "open" (.notEvaluated "open"))) := by
    rw [Resolver.check_eq]
    show ((documentService.resolver "t").resolveSchema none >>= _) = _
    rw [hresolve]
    rfl
  have hstored : ∀ stored ∈ (documentService.store.tenant "t").schemas,
      ∃ schema, stored.compile (Condition.engineWith compileName).refusal? "t"
        = .ok schema := by
    intro stored hmem
    cases List.mem_singleton.mp hmem
    exact ⟨documentSchema, compile_documentSchema⟩
  have hmissing : ¬ documentService.Declares "t" none "document" "edit" := by
    rintro ⟨stored, schema, hstored, hcompile, hp⟩
    cases hmeant.symm.trans hstored
    cases compile_documentSchema.symm.trans hcompile
    cases hp
  have hall := check_reports_missing_iff compileName
  constructor
  · exact ⟨_, hview, hall.1 "t" "v" documentSchema.source 0 documentSchema
      compile_documentSchema (documentService.resolver "t")
      (hs.runsOn _ "t") (documentRequest "view") rfl hresolve rfl _ hview⟩
  · exact ((hall.2 {} documentEvents (documentRequest "edit") rfl).2
      hstored).mpr hmissing

end Service

end Entitlement
