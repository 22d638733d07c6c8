import Entitlement.Proofs.Access.Inquiry
import Entitlement.Proofs.Service.OtherTuples
import Entitlement.Proofs.Service.Versions

/-!
# Operations with nothing kept ready

An operation, like a query, is taken apart at its lookups (`Service.inquire`):
it asks for schemas and for the truth of expressions, and comes to an answer
and to the store behind it. With each lookup answered by compiling what is
looked up (`Service.afresh`) this is the operation (`Coherent.applyAfresh_eq`).

A service `Mirrors` another one if they differ only in what they keep ready
and this is sound. Then it answers as the other one does afresh, one operation
after the other.
-/

namespace Entitlement

/-! ## Operations as inquiries -/

/-- A version of a schema, or the newest. -/
def Store.readVersion (s : Store) (tenant : String) :
    Option String → Except StoreError StoredSchema
  | some version => s.readSchema tenant version
  | none => s.latestSchema tenant

namespace Service

variable {engine : ExpressionEngine}

/-- **Lookups with nothing kept**: the stored text is compiled whenever a
schema is looked up, and an expression is compiled whenever its truth is. -/
def afresh (s : Service engine) : Lookups where
  schema tenant version := do
    let stored ← (s.store.readVersion tenant version).mapError .ofStoreError
    stored.compile engine.refusal? tenant
  truth := engine.evaluate

/-- The resolver of a tenant that reads tuples and attributes, and knows no
schema and no expression. -/
def reader (s : Service engine) (tenant : String) : Resolver :=
  (s.resolver tenant).withLookups
    { schema := fun tenant version => .error (.schemaNotFound tenant version)
      truth := fun text _ => .error (.notCompiled text) } tenant

/-- Asks for a schema of a tenant. -/
def askSchema (tenant : String) (version : Option String) :
    Asking ServiceError Schema := do
  requireTenant tenant
  (Asking.schema tenant version).mapOutcome fun outcome =>
    outcome.mapError .failure

/-- Asks for the answer to a query. The store stays. -/
def askQuery {α : Type} (s : Service engine) (query : Asking Failure α)
    (shown : α → Answer) : Asking ServiceError (Answer × Store) := do
  let a ← query.mapOutcome fun outcome =>
    outcome.mapError ServiceError.failure
  pure (shown a, s.store)

/-- **An operation as the lookups that it makes**, up to the answer and the
store behind it. -/
def inquire (s : Service engine) :
    Operation → Asking ServiceError (Answer × Store)
  | .writeSchema tenant source version createdAt => do
    requireTenant tenant
    let _ ← (compileSchema engine.refusal? tenant version source
      createdAt).mapError ServiceError.failure
    let store ← (s.store.writeSchema tenant
      { version, source, createdAt }).mapError ServiceError.store
    pure (.version version, store)
  | .readSchema tenant version => do
    let schema ← askSchema tenant version
    pure (.schema schema, s.store)
  | .schemaVersions tenant => do
    requireTenant tenant
    pure (.versions (s.store.schemaVersions tenant), s.store)
  | .writeRelationships tenant tuples => do
    let schema ← askSchema tenant none
    let _ ← (tuples.forM (checkRelationship schema) : Except _ Unit)
    let store ← (s.store.writeTuples tenant
      (tuples.map Tuple.normalize)).mapError ServiceError.store
    pure (.done, store)
  | .deleteRelationships tenant filter => do
    requireTenant tenant
    let (removed, store) ←
      (s.store.deleteTuples tenant filter).mapError ServiceError.store
    pure (.removed removed, store)
  | .writeAttributes tenant attributes => do
    let schema ← askSchema tenant none
    let _ ← (attributes.forM (checkAttribute schema) : Except _ Unit)
    let store ← (s.store.writeAttributes tenant
      (attributes.map Attribute.toJson)).mapError ServiceError.store
    pure (.done, store)
  | .deleteAttributes tenant entity name => do
    requireTenant tenant
    let (removed, store) := s.store.deleteAttributes tenant entity name
    pure (.removed removed, store)
  | .check request =>
    s.askQuery ((s.reader request.tenant).askCheck request) .allowed
  | .checkMultiple request permissions =>
    s.askQuery ((s.reader request.tenant).askMultiple request permissions)
      .permissions
  | .subjectPermission request =>
    s.askQuery ((s.reader request.tenant).askSubjectPermission request)
      .permissions
  | .expand request =>
    s.askQuery ((s.reader request.tenant).askTree request) .tree
  | .lookupEntity request =>
    s.askQuery ((s.reader request.tenant).askEntities request) .page
  | .lookupSubject request =>
    s.askQuery ((s.reader request.tenant).askSubjects request) .page

/-- What is kept ready plays no part in it. -/
theorem inquire_bare (s : Service engine) (operation : Operation) :
    s.bare.inquire operation = s.inquire operation := by
  cases operation <;> rfl

/-- The answer and the store behind an operation, which stays if it fails. -/
def conclude (store : Store) :
    Except ServiceError (Answer × Store) → Answer × Store
  | .ok x => x
  | .error e => (.error e, store)

/-- **One operation with nothing kept ready.** -/
def applyAfresh (s : Service engine) (operation : Operation) :
    Answer × Store :=
  conclude s.store ((s.inquire operation).outcome s.afresh)

/-! ### They are the operations -/

section

variable {s : Service engine}

/-- What is looked up afresh is what a service with nothing kept ready
reads. -/
theorem withLookups_afresh (s : Service engine) (tenant : String) :
    (s.reader tenant).withLookups s.afresh tenant = s.bare.resolver tenant := by
  have hschema : s.afresh.schema tenant
      = ({} : SchemaCache).read engine.refusal? s.store tenant := by
    funext version
    cases version <;> rfl
  have hholds : engine.evaluate
      = (ProgramCache.empty : ProgramCache engine).evaluate :=
    (ProgramCache.evaluate_eq ProgramCache.sound_empty).symm
  unfold Resolver.withLookups
  rw [hschema, show s.afresh.truth = _ from hholds]
  rfl

theorem Coherent.withLookups_afresh (h : s.Coherent) (tenant : String) :
    (s.reader tenant).withLookups s.afresh tenant = s.resolver tenant := by
  rw [Service.withLookups_afresh, h.resolver_eq]

theorem Coherent.outcome_askSchema (h : s.Coherent) (tenant : String)
    (version : Option String) :
    (askSchema tenant version).outcome s.afresh
      = s.readSchema tenant version := by
  unfold askSchema readSchema
  rw [← h.withLookups_afresh]
  simp only [Asking.outcome_bind, Asking.outcome_liftM,
    Asking.outcome_mapOutcome]
  rfl

theorem conclude_askQuery {α : Type} {query : Asking Failure α}
    {outcome : Except Failure α} (h : query.outcome s.afresh = outcome)
    (shown : α → Answer) :
    conclude s.store ((s.askQuery query shown).outcome s.afresh)
      = (showQuery shown outcome, s.store) := by
  unfold askQuery
  rw [Asking.outcome_bind, Asking.outcome_mapOutcome, h]
  cases outcome <;> rfl

theorem Coherent.readSchema_remember (h : s.Coherent) (tenant : String)
    (version : Option String) :
    (s.remember tenant version).readSchema tenant version
      = s.readSchema tenant version := by
  unfold readSchema
  rw [h.resolver_remember]

/-- What an admitted batch leaves behind is told alike by a service and by one
that has remembered something. -/
theorem conclude_write {ready : Service engine} (hstore : ready.store = s.store)
    (read : Except ServiceError Schema)
    (allows : Schema → Except ServiceError Unit)
    (write : Except ServiceError Store) :
    conclude s.store (do
        let schema ← read
        let _ ← allows schema
        let store ← write
        .ok (.done, store))
      = (fun step : Answer × Service engine => (step.1, step.2.store))
          (ready.change ((do
            let schema ← read
            allows schema
            let store ← write
            pure { ready with store }).map ((), ·)) fun _ => .done) := by
  cases read with
  | error e => exact congrArg _ hstore.symm
  | ok schema =>
    simp only [bind, Except.bind]
    cases allows schema with
    | error e => exact congrArg _ hstore.symm
    | ok =>
      cases write with
      | error e => exact congrArg _ hstore.symm
      | ok store => rfl

theorem Coherent.conclude_answer (h : s.Coherent) {α : Type}
    {query : Asking Failure α} {tenant : String}
    {resolved : Resolver → Except Failure α}
    (hquery : query.outcome s.afresh
      = resolved ((s.reader tenant).withLookups s.afresh tenant))
    (version : Option String) (shown : α → Answer) :
    conclude s.store ((s.askQuery query shown).outcome s.afresh)
      = ((s.answer tenant version resolved shown).1,
          (s.answer tenant version resolved shown).2.store) := by
  rw [h.answer_eq, store_remember, conclude_askQuery hquery,
    Service.withLookups_afresh]

/-- **An operation with nothing kept ready** answers as the operation does,
and leaves the store that it leaves. -/
theorem Coherent.applyAfresh_eq (h : s.Coherent) (operation : Operation) :
    s.applyAfresh operation
      = ((s.apply operation).1, (s.apply operation).2.store) := by
  unfold applyAfresh
  cases operation with
  | writeSchema tenant source version createdAt =>
    simp only [inquire, Service.apply, Asking.outcome_bind,
      Asking.outcome_liftM, Asking.outcome_pure]
    unfold Service.writeSchema
    cases requireTenant tenant with
    | error e => rfl
    | ok =>
      cases compileSchema engine.refusal? tenant version source createdAt with
      | error e => rfl
      | ok schema =>
        cases s.store.writeSchema tenant ⟨version, source, createdAt⟩ <;> rfl
  | readSchema tenant version =>
    simp only [inquire, Service.apply, Asking.outcome_bind,
      h.outcome_askSchema, Asking.outcome_pure, h.readSchema_remember]
    cases s.readSchema tenant version with
    | ok schema => exact congrArg _ (store_remember tenant version).symm
    | error e => exact congrArg _ (store_remember tenant version).symm
  | schemaVersions tenant =>
    simp only [inquire, Service.apply, Asking.outcome_bind,
      Asking.outcome_liftM, Asking.outcome_pure]
    unfold schemaVersions
    cases requireTenant tenant <;> rfl
  | writeRelationships tenant tuples =>
    simp only [inquire, Service.apply, Asking.outcome_bind,
      Asking.outcome_liftM, h.outcome_askSchema, Asking.outcome_pure]
    unfold writeRelationships
    rw [h.readSchema_remember, store_remember]
    exact conclude_write (store_remember tenant none) _ _ _
  | deleteRelationships tenant filter =>
    simp only [inquire, Service.apply, Asking.outcome_bind,
      Asking.outcome_liftM, Asking.outcome_pure]
    unfold deleteRelationships
    cases requireTenant tenant with
    | error e => rfl
    | ok => cases s.store.deleteTuples tenant filter <;> rfl
  | writeAttributes tenant attributes =>
    simp only [inquire, Service.apply, Asking.outcome_bind,
      Asking.outcome_liftM, h.outcome_askSchema, Asking.outcome_pure]
    unfold writeAttributes
    rw [h.readSchema_remember, store_remember]
    exact conclude_write (store_remember tenant none) _ _ _
  | deleteAttributes tenant entity name =>
    simp only [inquire, Service.apply, Asking.outcome_bind,
      Asking.outcome_liftM, Asking.outcome_pure]
    unfold deleteAttributes
    cases requireTenant tenant <;> rfl
  | check request =>
    exact h.conclude_answer (Resolver.outcome_askCheck _ _ request) _ _
  | checkMultiple request permissions =>
    exact h.conclude_answer
      (Resolver.outcome_askMultiple _ _ request permissions) _ _
  | subjectPermission request =>
    exact h.conclude_answer
      (Resolver.outcome_askSubjectPermission _ _ request) _ _
  | expand request =>
    exact h.conclude_answer (Resolver.outcome_askTree _ _ request) _ _
  | lookupEntity request =>
    exact h.conclude_answer (Resolver.outcome_askEntities _ _ request) _ _
  | lookupSubject request =>
    exact h.conclude_answer (Resolver.outcome_askSubjects _ _ request) _ _

/-- All versions that there were are there behind it. -/
theorem Coherent.keepsVersions_applyAfresh (h : s.Coherent)
    (operation : Operation) :
    s.store.KeepsVersions (s.applyAfresh operation).2 := by
  have hown : ∀ event ∈ [Event.operation operation], event.isOwn = true :=
    List.forall_mem_singleton.mpr rfl
  rw [h.applyAfresh_eq]
  exact s.keepsVersions_after hown

theorem Coherent.readsBack_applyAfresh (h : s.Coherent)
    (operation : Operation) : (s.applyAfresh operation).2.ReadsBack := by
  rw [h.applyAfresh_eq]
  exact (h.apply operation).readsBack

/-! ### Up to what is kept ready -/

variable {b : Service engine}

/-- **Whether a service is another one** apart from what it keeps ready, which
is sound. -/
structure Mirrors (s b : Service engine) : Prop where
  coherent : s.Coherent
  bare : s.bare = b.bare

theorem Mirrors.store_eq (h : s.Mirrors b) : s.store = b.store := by
  show s.bare.store = b.bare.store
  rw [h.bare]

/-- So it is when the same is stored that keeps the versions. -/
theorem Mirrors.withStore (h : s.Mirrors b) {store : Store}
    (hkeeps : b.store.KeepsVersions store) (hreads : store.ReadsBack) :
    Mirrors { s with store } { b with store } where
  coherent := h.coherent.of_store (h.store_eq ▸ hkeeps) hreads
  bare := by
    show { s.bare with store } = { b.bare with store }
    rw [h.bare]

theorem Mirrors.applyAfresh_eq (h : s.Mirrors b) (operation : Operation) :
    s.applyAfresh operation = b.applyAfresh operation := by
  have hbare : ∀ t : Service engine, t.bare.applyAfresh operation
      = t.applyAfresh operation := by
    intro t
    unfold applyAfresh
    rw [inquire_bare]
    rfl
  rw [← hbare s, h.bare, hbare]

theorem bare_withStore (s : Service engine)
    (result : Except StoreError Store) :
    (s.withStore result).bare = s.bare.withStore result := by
  cases result <;> rfl

/-- Other events than operations touch nothing that is kept ready, or only
that. -/
theorem Mirrors.meet (h : s.Mirrors b) {event : Event}
    (hevent : ∀ operation, event ≠ .operation operation) :
    (s.meet event).Mirrors (b.meet event) where
  coherent := h.coherent.meet event
  bare := by
    have hbare : ∀ t : Service engine,
        (t.meet event).bare = (t.bare.meet event).bare := by
      intro t
      cases event with
      | operation operation => exact absurd rfl (hevent operation)
      | forget | disturb => rfl
      | storeSchema | storeTuples | storeAttributes =>
        exact (bare_withStore t _).trans (bare_withStore t.bare _).symm
    rw [hbare s, h.bare, ← hbare]

/-! ## Runs -/

/-- What is answered at an event, and the service behind it, with nothing kept
ready. -/
def meetAfresh (s : Service engine) : Event → List Answer × Service engine
  | .operation operation =>
    let (answer, store) := s.applyAfresh operation
    ([answer], { s with store })
  | event => ([], s.meet event)

/-- **What is answered while events happen**, with nothing kept ready. -/
def answersAfresh (s : Service engine) : List Event → List Answer
  | [] => []
  | event :: events =>
    (s.meetAfresh event).1 ++ (s.meetAfresh event).2.answersAfresh events

/-- What is answered at an event. -/
def answersAt (s : Service engine) : Event → List Answer
  | .operation operation => [(s.apply operation).1]
  | _ => []

/-- **What is answered while events happen.** -/
def answers (s : Service engine) : List Event → List Answer
  | [] => []
  | event :: events => s.answersAt event ++ (s.meet event).answers events

/-! A service changes nothing of itself but its store and what it keeps
ready. -/

theorem bare_answer {α : Type} (tenant : String) (version : Option String)
    (query : Resolver → Except Failure α) (shown : α → Answer) :
    (s.answer tenant version query shown).2.bare = s.bare.withStore
      (.ok (s.answer tenant version query shown).2.store) := by
  have hanswer : (s.answer tenant version query shown).2
      = s.remember tenant version := by
    unfold answer
    simp only
    cases query ((s.remember tenant version).resolver tenant) <;> rfl
  rw [hanswer, bare_remember, store_remember]
  rfl

theorem bare_change {α : Type} {ready : Service engine}
    (hready : ready.bare = s.bare)
    {result : Except ServiceError (α × Service engine)} (shown : α → Answer)
    (h : ∀ {a s'}, result = .ok (a, s') → ready.LeavesVersions s') :
    (ready.change result shown).2.bare = s.bare.withStore
      (.ok (ready.change result shown).2.store) := by
  rw [← hready]
  cases result with
  | error e => rfl
  | ok p =>
    obtain ⟨store, -, hstore⟩ := @h p.1 p.2 rfl
    show p.2.bare = ready.bare.withStore (.ok p.2.store)
    rw [hstore]
    rfl

theorem bare_apply (s : Service engine) (operation : Operation) :
    (s.apply operation).2.bare
      = s.bare.withStore (.ok (s.apply operation).2.store) := by
  cases operation with
  | writeSchema tenant source version createdAt =>
    rcases s.apply_writeSchema_cases tenant source version createdAt with
      ⟨store, -, -, -, happly⟩ | ⟨e, happly⟩
    · rw [happly]
      rfl
    · rw [happly]
      rfl
  | readSchema tenant version =>
    have hready : (s.apply (.readSchema tenant version)).2
        = s.remember tenant version := by
      simp only [Service.apply]
      cases (s.remember tenant version).readSchema tenant version <;> rfl
    rw [hready, bare_remember, store_remember]
    rfl
  | schemaVersions tenant =>
    simp only [Service.apply]
    cases s.schemaVersions tenant <;> rfl
  | writeRelationships tenant tuples =>
    exact bare_change (bare_remember s tenant none) _ fun hs =>
      leavesVersions_writeRelationships (eq_ok_of_map_unit hs)
  | deleteRelationships tenant filter =>
    exact bare_change rfl _ leavesVersions_deleteRelationships
  | writeAttributes tenant attributes =>
    exact bare_change (bare_remember s tenant none) _ fun hs =>
      leavesVersions_writeAttributes (eq_ok_of_map_unit hs)
  | deleteAttributes tenant entity name =>
    exact bare_change rfl _ leavesVersions_deleteAttributes
  | check => exact bare_answer ..
  | checkMultiple => exact bare_answer ..
  | subjectPermission => exact bare_answer ..
  | expand => exact bare_answer ..
  | lookupEntity => exact bare_answer ..
  | lookupSubject => exact bare_answer ..

theorem meetAfresh_of_ne {event : Event}
    (hevent : ∀ operation, event ≠ .operation operation) :
    s.meetAfresh event = ([], s.meet event) := by
  cases event with
  | operation operation => exact absurd rfl (hevent operation)
  | _ => rfl

theorem answersAt_of_ne {event : Event}
    (hevent : ∀ operation, event ≠ .operation operation) :
    s.answersAt event = [] := by
  cases event with
  | operation operation => exact absurd rfl (hevent operation)
  | _ => rfl

theorem Coherent.meetAfresh (h : s.Coherent) (event : Event) :
    (s.meetAfresh event).2.Coherent := by
  by_cases hevent : ∃ operation, event = .operation operation
  · obtain ⟨operation, rfl⟩ := hevent
    exact h.of_store (h.keepsVersions_applyAfresh operation)
      (h.readsBack_applyAfresh operation)
  · rw [not_exists] at hevent
    rw [meetAfresh_of_ne hevent]
    exact h.meet event

/-- An operation is answered as it is answered afresh. -/
theorem Mirrors.apply (h : s.Mirrors b) (operation : Operation) :
    (s.apply operation).1 = (b.applyAfresh operation).1 ∧
      (s.apply operation).2.Mirrors
        { b with store := (b.applyAfresh operation).2 } := by
  have happly : ((s.apply operation).1, (s.apply operation).2.store)
      = b.applyAfresh operation := by
    rw [← h.coherent.applyAfresh_eq, h.applyAfresh_eq]
  rw [← happly]
  refine ⟨rfl, h.coherent.apply operation, ?_⟩
  rw [bare_apply, h.bare]
  rfl

/-- **A service answers as it answers afresh** while events happen. -/
theorem Mirrors.answers_eq (h : s.Mirrors b) (events : List Event) :
    s.answers events = b.answersAfresh events := by
  induction events generalizing s b with
  | nil => rfl
  | cons event events ih =>
    rw [answers, answersAfresh]
    by_cases hevent : ∃ operation, event = .operation operation
    · obtain ⟨operation, rfl⟩ := hevent
      obtain ⟨hanswer, hnext⟩ := h.apply operation
      exact congr (congrArg _ (congrArg (fun answer => [answer]) hanswer))
        (ih hnext)
    · rw [not_exists] at hevent
      rw [answersAt_of_ne hevent, meetAfresh_of_ne hevent,
        ih (h.meet hevent)]

end

end Service

end Entitlement
