import Entitlement.Proofs.Service.Listing

/-!
# Tenants apart

All tenants share one service, with one store, one cache of schemas and one
of expressions. Still a tenant is answered as if there were no others. What
its operations come to depends on its *view* of the service alone: the
limits of queries, the faults of reads, and the data that is stored for it.
An operation of the tenant gives the same answer wherever the view is the
same, leaves the same view behind, and changes the view of no one else
(`Service.Unwinds`).

So from run to run everything may differ that is in no view: what is kept
ready, how much is kept ready and how long, and what the others do.
-/

namespace Entitlement

/-! ## Stores -/

namespace Store

/-! What is written for a tenant is made of the data of the tenant alone, and
so are the reasons why it is not. -/

/-- **Whether the same data is written for a tenant** to two stores. -/
def Puts (tenant : String) (s s' store store' : Store) : Prop :=
  ∃ data, store = s.setTenant tenant data ∧ store' = s'.setTenant tenant data

section

variable {s s' : Store} {tenant : String}
  (h : s'.tenant tenant = s.tenant tenant)
include h

theorem related_writeSchema (schema : StoredSchema) :
    Outcome.Related (Puts tenant s s') (s.writeSchema tenant schema)
      (s'.writeSchema tenant schema) := by
  refine Outcome.Related.bind (.refl _) fun _ => ?_
  refine Outcome.Related.bind (.refl _) fun _ => ?_
  simp only [h]
  split
  · exact .error _
  · exact .ok ⟨_, rfl, rfl⟩

theorem related_writeTuples (tuples : List Tuple) :
    Outcome.Related (Puts tenant s s') (s.writeTuples tenant tuples)
      (s'.writeTuples tenant tuples) := by
  refine Outcome.Related.bind (.refl _) fun _ => ?_
  refine Outcome.Related.bind (.refl _) fun _ => ?_
  simp only [h]
  exact .ok ⟨_, rfl, rfl⟩

theorem related_deleteTuples (filter : TupleFilter) :
    Outcome.Related (fun p p' => p.1 = p'.1 ∧ Puts tenant s s' p.2 p'.2)
      (s.deleteTuples tenant filter) (s'.deleteTuples tenant filter) := by
  refine Outcome.Related.bind (.refl _) fun _ => ?_
  simp only [h]
  split
  · exact .error _
  · exact .ok ⟨rfl, _, rfl, rfl⟩

theorem related_writeAttributes (attributes : List (Attribute Json)) :
    Outcome.Related (Puts tenant s s') (s.writeAttributes tenant attributes)
      (s'.writeAttributes tenant attributes) := by
  refine Outcome.Related.bind (.refl _) fun _ => ?_
  refine Outcome.Related.bind (.refl _) fun _ => ?_
  simp only [h]
  exact .ok ⟨_, rfl, rfl⟩

theorem related_deleteAttributes (entity : EntityRef)
    (name : Option String) :
    (s.deleteAttributes tenant entity name).1
        = (s'.deleteAttributes tenant entity name).1 ∧
      Puts tenant s s' (s.deleteAttributes tenant entity name).2
        (s'.deleteAttributes tenant entity name).2 := by
  unfold deleteAttributes
  simp only [h, true_and]
  exact ⟨_, rfl, rfl⟩

end

end Store

namespace Service

variable {engine : ExpressionEngine} {s s' t t' : Service engine}
  {tenant : String}

/-! ## Views -/

/-- **What the operations of a tenant see of a service.** -/
structure View where
  limits : EngineSettings
  faults : ReadFaults
  data : TenantData

/-- What a tenant sees of a service. -/
def view (s : Service engine) (tenant : String) : View where
  limits := s.settings.engine
  faults := s.faults
  data := s.store.tenant tenant

theorem view_withData_self (s : Service engine) (tenant : String)
    (data : TenantData) :
    (s.withData tenant data).view tenant
      = ⟨s.settings.engine, s.faults, data⟩ := by
  unfold view withData
  rw [Store.tenant_setTenant_self]

theorem view_withData_of_ne (s : Service engine) {other : String}
    (h : other ≠ tenant) (data : TenantData) :
    (s.withData tenant data).view other = s.view other := by
  unfold view withData
  rw [Store.tenant_setTenant_of_ne s.store data h]

/-- What is kept ready is not seen. -/
theorem view_remember (s : Service engine) (tenant : String)
    (version : Option String) (other : String) :
    (s.remember tenant version).view other = s.view other := by
  show (s.remember tenant version).bare.view other = s.bare.view other
  rw [bare_remember]

theorem view_remember_eq (h : s'.view tenant = s.view tenant)
    (version : Option String) :
    (s'.remember tenant version).view tenant
      = (s.remember tenant version).view tenant := by
  rw [view_remember, view_remember, h]

/-! Whoever sees two services alike sees the same limits, faults and
data. -/

theorem limits_eq_of_view (h : s'.view tenant = s.view tenant) :
    s'.settings.engine = s.settings.engine :=
  congrArg View.limits h

theorem faults_eq_of_view (h : s'.view tenant = s.view tenant) :
    s'.faults = s.faults :=
  congrArg View.faults h

theorem data_eq_of_view (h : s'.view tenant = s.view tenant) :
    s'.store.tenant tenant = s.store.tenant tenant :=
  congrArg View.data h

/-- **Queries are answered from the view.** -/
theorem Coherent.resolver_eq_of_view (hs : s.Coherent) (hs' : s'.Coherent)
    (h : s'.view tenant = s.view tenant) :
    s'.resolver tenant = s.resolver tenant := by
  have hdata := data_eq_of_view h
  rw [hs.resolver_eq, hs'.resolver_eq]
  unfold resolver resolverWithin bare
  simp only
  rw [limits_eq_of_view h, faults_eq_of_view h,
    Store.read_eq_of_schemas (congrArg TenantData.schemas hdata),
    Store.queryTuples_eq_of_tuples (congrArg TenantData.tuples hdata),
    Store.queryAttributes_eq_of_attributes
      (congrArg TenantData.attributes hdata)]

theorem Coherent.readSchema_eq_of_view (hs : s.Coherent) (hs' : s'.Coherent)
    (h : s'.view tenant = s.view tenant) (version : Option String) :
    s'.readSchema tenant version = s.readSchema tenant version := by
  unfold readSchema
  rw [hs.resolver_eq_of_view hs' h]

/-! ## Changes -/

/-- **Whether two services are what two others become** when the same data
is written for a tenant. -/
def Writes (tenant : String) (s s' t t' : Service engine) : Prop :=
  ∃ data, t = s.withData tenant data ∧ t' = s'.withData tenant data

/-- A store that is written to is that of a service. -/
theorem writes_of_puts {store store' : Store}
    (h : Store.Puts tenant s.store s'.store store store') :
    Writes tenant s s' { s with store } { s' with store := store' } := by
  obtain ⟨data, rfl, rfl⟩ := h
  exact ⟨data, rfl, rfl⟩

namespace Writes

variable (hw : Writes tenant s s' t t')
include hw

/-- What was seen alike before is seen alike after. -/
theorem view_eq (h : s'.view tenant = s.view tenant) :
    t'.view tenant = t.view tenant := by
  obtain ⟨data, rfl, rfl⟩ := hw
  rw [view_withData_self, view_withData_self, limits_eq_of_view h,
    faults_eq_of_view h]

/-- The others see nothing of it. -/
theorem view_of_ne {other : String} (hother : other ≠ tenant) :
    t.view other = s.view other := by
  obtain ⟨data, rfl, -⟩ := hw
  exact view_withData_of_ne s hother data

end Writes

/-- What is written to a store is written to its service. -/
theorem related_store {result result' : Except StoreError Store}
    (h : Outcome.Related (Store.Puts tenant s.store s'.store) result
      result') :
    Outcome.Related (Writes tenant s s')
      (do
        let store ← result.mapError ServiceError.store
        pure { s with store })
      (do
        let store ← result'.mapError ServiceError.store
        pure { s' with store }) :=
  (h.mapError _).bind fun hputs => .ok (writes_of_puts hputs)

theorem related_writeSchema (h : s'.view tenant = s.view tenant)
    (source version : String) (createdAt : Int) :
    Outcome.Related (Writes tenant s s')
      (s.writeSchema tenant source version createdAt)
      (s'.writeSchema tenant source version createdAt) := by
  refine Outcome.Related.bind (.refl _) fun _ => ?_
  refine Outcome.Related.bind (.refl _) fun _ => ?_
  exact related_store (Store.related_writeSchema (data_eq_of_view h) _)

theorem related_deleteRelationships (h : s'.view tenant = s.view tenant)
    (filter : TupleFilter) :
    Outcome.Related (fun p p' => p.1 = p'.1 ∧ Writes tenant s s' p.2 p'.2)
      (s.deleteRelationships tenant filter)
      (s'.deleteRelationships tenant filter) := by
  refine Outcome.Related.bind (.refl _) fun _ => ?_
  refine Outcome.Related.bind
    ((Store.related_deleteTuples (data_eq_of_view h) filter).mapError
      ServiceError.store) ?_
  exact fun ⟨hcount, hputs⟩ => .ok ⟨hcount, writes_of_puts hputs⟩

theorem related_deleteAttributes (h : s'.view tenant = s.view tenant)
    (entity : EntityRef) (name : Option String) :
    Outcome.Related (fun p p' => p.1 = p'.1 ∧ Writes tenant s s' p.2 p'.2)
      (s.deleteAttributes tenant entity name)
      (s'.deleteAttributes tenant entity name) := by
  refine Outcome.Related.bind (.refl _) fun _ => ?_
  obtain ⟨hcount, hputs⟩ :=
    Store.related_deleteAttributes (data_eq_of_view h) entity name
  exact .ok ⟨hcount, writes_of_puts hputs⟩

theorem related_writeRelationships (hs : s.Coherent) (hs' : s'.Coherent)
    (h : s'.view tenant = s.view tenant) (tuples : List Tuple) :
    Outcome.Related (Writes tenant s s') (s.writeRelationships tenant tuples)
      (s'.writeRelationships tenant tuples) := by
  unfold writeRelationships
  rw [hs.readSchema_eq_of_view hs' h]
  refine Outcome.Related.bind (.refl _) fun hschema => ?_
  subst hschema
  refine Outcome.Related.bind (.refl _) fun _ => ?_
  exact related_store (Store.related_writeTuples (data_eq_of_view h) _)

theorem related_writeAttributes (hs : s.Coherent) (hs' : s'.Coherent)
    (h : s'.view tenant = s.view tenant)
    (attributes : List (Attribute AttributeValue)) :
    Outcome.Related (Writes tenant s s') (s.writeAttributes tenant attributes)
      (s'.writeAttributes tenant attributes) := by
  unfold writeAttributes
  rw [hs.readSchema_eq_of_view hs' h]
  refine Outcome.Related.bind (.refl _) fun hschema => ?_
  subst hschema
  refine Outcome.Related.bind (.refl _) fun _ => ?_
  exact related_store (Store.related_writeAttributes (data_eq_of_view h) _)

/-! ## Operations -/

/-- **Whether a step of a tenant goes alike in two services**: it gives the
same answer and leaves the same view behind. The others see nothing of
it. -/
structure Unwinds (tenant : String) (s : Service engine)
    (step step' : Answer × Service engine) : Prop where
  answer : step'.1 = step.1
  view : step'.2.view tenant = step.2.view tenant
  others : ∀ other, other ≠ tenant → step.2.view other = s.view other

/-- What does not write goes alike. -/
theorem unwinds_of_view {answer : Answer}
    (h : t'.view tenant = t.view tenant)
    (ht : ∀ other, t.view other = s.view other) :
    Unwinds tenant s (answer, t) (answer, t') :=
  ⟨rfl, h, fun other _ => ht other⟩

/-- A query goes alike. -/
theorem unwinds_answer {α : Type} (hs : s.Coherent) (hs' : s'.Coherent)
    (h : s'.view tenant = s.view tenant) (version : Option String)
    (query : Resolver → Except Failure α) (shown : α → Answer) :
    Unwinds tenant s (s.answer tenant version query shown)
      (s'.answer tenant version query shown) := by
  rw [hs.answer_eq, hs'.answer_eq, ← hs.resolver_eq, ← hs'.resolver_eq,
    hs.resolver_eq_of_view hs' h]
  exact unwinds_of_view (view_remember_eq h version)
    (view_remember s tenant version)

/-- A change goes alike. -/
theorem unwinds_change {α : Type} (h : s'.view tenant = s.view tenant)
    {result result' : Except ServiceError (α × Service engine)}
    (hresult : Outcome.Related
      (fun p p' => p.1 = p'.1 ∧ Writes tenant s s' p.2 p'.2) result result')
    (shown : α → Answer) :
    Unwinds tenant s (s.change result shown) (s'.change result' shown) := by
  cases hresult with
  | error e => exact unwinds_of_view h fun _ => rfl
  | @ok p p' hp =>
    obtain ⟨a, t⟩ := p
    obtain ⟨a', t'⟩ := p'
    obtain ⟨rfl, hw⟩ := hp
    exact ⟨rfl, hw.view_eq h, fun _ => hw.view_of_ne⟩

/-- A change without a count goes alike. -/
theorem unwinds_change_unit (h : s'.view tenant = s.view tenant)
    {result result' : Except ServiceError (Service engine)}
    (hresult : Outcome.Related (Writes tenant s s') result result')
    (shown : Unit → Answer) :
    Unwinds tenant s (s.change (result.map ((), ·)) shown)
      (s'.change (result'.map ((), ·)) shown) :=
  unwinds_change h
    (hresult.map (f := ((), ·)) (g := ((), ·)) fun hw => ⟨rfl, hw⟩) shown

/-- What goes alike after something is kept ready goes alike before. -/
theorem Unwinds.of_remember {version : Option String}
    {step step' : Answer × Service engine}
    (h : Unwinds tenant (s.remember tenant version) step step') :
    Unwinds tenant s step step' where
  answer := h.answer
  view := h.view
  others other hother :=
    (h.others other hother).trans (view_remember s tenant version other)

/-- A read of a schema goes alike. -/
theorem unwinds_readSchema (hs : s.Coherent) (hs' : s'.Coherent)
    (h : s'.view tenant = s.view tenant) (version : Option String) :
    Unwinds tenant s (s.apply (.readSchema tenant version))
      (s'.apply (.readSchema tenant version)) := by
  have hready := view_remember_eq h version
  have hread := (hs.remember tenant version).readSchema_eq_of_view
    (hs'.remember tenant version) hready version
  simp only [Service.apply]
  rw [hread]
  split
  · exact unwinds_of_view hready (view_remember s tenant version)
  · exact unwinds_of_view hready (view_remember s tenant version)

/-- So does a read of the names of its versions. -/
theorem unwinds_schemaVersions (h : s'.view tenant = s.view tenant) :
    Unwinds tenant s (s.apply (.schemaVersions tenant))
      (s'.apply (.schemaVersions tenant)) := by
  have hversions : s'.schemaVersions tenant = s.schemaVersions tenant := by
    unfold schemaVersions Store.schemaVersions
    rw [data_eq_of_view h]
  simp only [Service.apply]
  rw [hversions]
  split
  · exact unwinds_of_view h fun _ => rfl
  · exact unwinds_of_view h fun _ => rfl

/-- **Every operation goes alike in services that its tenant sees alike.** -/
theorem unwinds_apply (hs : s.Coherent) (hs' : s'.Coherent)
    (operation : Operation)
    (h : s'.view operation.tenant = s.view operation.tenant) :
    Unwinds operation.tenant s (s.apply operation) (s'.apply operation) := by
  -- what is kept ready before a change is not seen
  have hready := view_remember_eq h none
  cases operation with
  | writeSchema tenant source version createdAt =>
    exact unwinds_change_unit h (related_writeSchema h ..) _
  | readSchema tenant version => exact unwinds_readSchema hs hs' h version
  | schemaVersions tenant => exact unwinds_schemaVersions h
  | writeRelationships tenant tuples =>
    have hs := hs.remember tenant none
    have hs' := hs'.remember tenant none
    exact (unwinds_change_unit hready
      (related_writeRelationships hs hs' hready tuples) _).of_remember
  | deleteRelationships tenant filter =>
    exact unwinds_change h (related_deleteRelationships h filter) _
  | writeAttributes tenant attributes =>
    have hs := hs.remember tenant none
    have hs' := hs'.remember tenant none
    exact (unwinds_change_unit hready
      (related_writeAttributes hs hs' hready attributes) _).of_remember
  | deleteAttributes tenant entity name =>
    exact unwinds_change h (related_deleteAttributes h entity name) _
  | check request =>
    exact unwinds_answer hs hs' h request.version (·.check request) .allowed
  | checkMultiple request permissions =>
    exact unwinds_answer hs hs' h request.version
      (·.checkMultiple request permissions) .permissions
  | subjectPermission request =>
    exact unwinds_answer hs hs' h request.version
      (·.subjectPermission request) .permissions
  | expand request =>
    exact unwinds_answer hs hs' h request.version (·.expand request) .tree
  | lookupEntity request =>
    exact unwinds_answer hs hs' h request.version (·.lookupEntity request)
      .page
  | lookupSubject request =>
    exact unwinds_answer hs hs' h request.version (·.lookupSubject request)
      .page

/-! ## Events -/

/-- **Whether an event is one of a tenant**: an operation of it, or a write
to the store for it. Reads are disturbed for all tenants at once, and what
is kept ready is lost for none. -/
def Event.isOf (tenant : String) : Event → Bool
  | operation o => o.tenant == tenant
  | forget .. => false
  | disturb _ => true
  | storeSchema owner _ => owner == tenant
  | storeTuples owner _ => owner == tenant
  | storeAttributes owner _ => owner == tenant

/-- A write to the store itself goes alike, too. -/
theorem view_withStore (h : s'.view tenant = s.view tenant)
    {result result' : Except StoreError Store}
    (hresult : Outcome.Related (Store.Puts tenant s.store s'.store) result
      result') :
    (s'.withStore result').view tenant = (s.withStore result).view tenant ∧
      ∀ other, other ≠ tenant →
        (s.withStore result).view other = s.view other := by
  cases hresult with
  | error e => exact ⟨h, fun _ _ => rfl⟩
  | ok hputs =>
    have hw := writes_of_puts hputs
    exact ⟨hw.view_eq h, fun _ => hw.view_of_ne⟩

/-- **An event of a tenant leaves the same view behind.** -/
theorem view_meet_of_isOf (hs : s.Coherent) (hs' : s'.Coherent)
    (h : s'.view tenant = s.view tenant) {event : Event}
    (hevent : event.isOf tenant = true) :
    (s'.meet event).view tenant = (s.meet event).view tenant := by
  have hdata := data_eq_of_view h
  cases event with
  | operation o =>
    obtain rfl : o.tenant = tenant := beq_iff_eq.mp hevent
    exact (unwinds_apply hs hs' o h).view
  | forget keeps clearPrograms => cases hevent
  | disturb faults =>
    show View.mk s'.settings.engine faults (s'.store.tenant tenant)
      = View.mk s.settings.engine faults (s.store.tenant tenant)
    rw [limits_eq_of_view h, hdata]
  | storeSchema owner schema =>
    obtain rfl : owner = tenant := beq_iff_eq.mp hevent
    exact (view_withStore h (Store.related_writeSchema hdata schema)).1
  | storeTuples owner tuples =>
    obtain rfl : owner = tenant := beq_iff_eq.mp hevent
    exact (view_withStore h (Store.related_writeTuples hdata tuples)).1
  | storeAttributes owner attributes =>
    obtain rfl : owner = tenant := beq_iff_eq.mp hevent
    exact (view_withStore h (Store.related_writeAttributes hdata attributes)).1

/-- **Any other event leaves the view as it was.** -/
theorem view_meet_of_not_isOf (hs : s.Coherent) {event : Event}
    (hevent : event.isOf tenant = false) :
    (s.meet event).view tenant = s.view tenant := by
  have hne : ∀ {owner : String}, (owner == tenant) = false →
      tenant ≠ owner := fun howner => Ne.symm (beq_eq_false_iff_ne.mp howner)
  cases event with
  | operation o => exact (unwinds_apply hs hs o rfl).others tenant (hne hevent)
  | forget keeps clearPrograms => rfl
  | disturb faults => cases hevent
  | storeSchema owner schema =>
    exact (view_withStore rfl (Store.related_writeSchema rfl schema)).2 tenant
      (hne hevent)
  | storeTuples owner tuples =>
    exact (view_withStore rfl (Store.related_writeTuples rfl tuples)).2 tenant
      (hne hevent)
  | storeAttributes owner attributes =>
    exact (view_withStore rfl
      (Store.related_writeAttributes rfl attributes)).2 tenant (hne hevent)

/-! ## Runs -/

/-- What a tenant is answered at an event, if it is an operation of it. -/
def answerTo? (s : Service engine) (tenant : String) : Event → Option Answer
  | .operation o => if o.tenant == tenant then some (s.apply o).1 else none
  | _ => none

/-- **What a tenant is answered** while events happen. -/
def answersTo (s : Service engine) (tenant : String) :
    List Event → List Answer
  | [] => []
  | event :: events =>
    (s.answerTo? tenant event).toList ++ (s.meet event).answersTo tenant events

/-- Whoever sees a service alike is answered alike. -/
theorem answerTo?_eq_of_view (hs : s.Coherent) (hs' : s'.Coherent)
    (h : s'.view tenant = s.view tenant) (event : Event) :
    s'.answerTo? tenant event = s.answerTo? tenant event := by
  cases event with
  | operation o =>
    show (if o.tenant == tenant then some (s'.apply o).1 else none)
      = if o.tenant == tenant then some (s.apply o).1 else none
    split
    next ho =>
      obtain rfl : o.tenant = tenant := beq_iff_eq.mp ho
      rw [(unwinds_apply hs hs' o h).answer]
    next => rfl
  | _ => rfl

theorem answerTo?_of_not_isOf {event : Event}
    (hevent : event.isOf tenant = false) :
    s.answerTo? tenant event = none := by
  cases event with
  | operation o => exact if_neg (Bool.eq_false_iff.mp hevent)
  | _ => rfl

/-- **A tenant is answered as if only its own events happened**, wherever it
sees the same at the beginning. -/
theorem answersTo_eq_of_view (hs : s.Coherent) (hs' : s'.Coherent)
    (h : s'.view tenant = s.view tenant) (events : List Event) :
    s.answersTo tenant events
      = s'.answersTo tenant (events.filter (Event.isOf tenant)) := by
  induction events generalizing s s' with
  | nil => rfl
  | cons event events ih =>
    cases hevent : event.isOf tenant with
    | true =>
      rw [List.filter_cons_of_pos hevent, answersTo, answersTo,
        answerTo?_eq_of_view hs hs' h,
        ih (hs.meet event) (hs'.meet event)
          (view_meet_of_isOf hs hs' h hevent)]
    | false =>
      have hview : s'.view tenant = (s.meet event).view tenant :=
        h.trans (view_meet_of_not_isOf hs hevent).symm
      rw [List.filter_cons_of_neg (Bool.eq_false_iff.mp hevent), answersTo,
        answerTo?_of_not_isOf hevent, ih (hs.meet event) hs' hview]
      rfl

/-- What a tenant is answered in a run of operations. -/
theorem answersTo_operations (s : Service engine) (tenant : String)
    (operations : List Operation) :
    s.answersTo tenant (operations.map .operation)
      = ((operations.zip (s.run operations).1).filter fun p =>
          p.1.tenant == tenant).map Prod.snd := by
  induction operations generalizing s with
  | nil => rfl
  | cons o operations ih =>
    show (s.answerTo? tenant (.operation o)).toList
        ++ (s.apply o).2.answersTo tenant _
      = (((o, (s.apply o).1) ::
          operations.zip ((s.apply o).2.run operations).1).filter fun p =>
            p.1.tenant == tenant).map Prod.snd
    rw [ih, List.filter_cons]
    cases ho : o.tenant == tenant with
    | true => simp [answerTo?, ho]
    | false => simp [answerTo?, ho]

/-- In a run of its own operations a tenant is answered all. -/
theorem answersTo_own (s : Service engine) {operations : List Operation}
    (h : ∀ o ∈ operations, o.tenant = tenant) :
    s.answersTo tenant (operations.map .operation)
      = (s.run operations).1 := by
  induction operations generalizing s with
  | nil => rfl
  | cons o operations ih =>
    obtain ⟨ho, h⟩ := List.forall_mem_cons.mp h
    show (s.answerTo? tenant (.operation o)).toList
        ++ (s.apply o).2.answersTo tenant _
      = (s.apply o).1 :: ((s.apply o).2.run operations).1
    rw [ih _ h, answerTo?, if_pos (beq_iff_eq.mpr ho)]
    rfl

/-- **Tenants do not interfere.** In any run of operations of several
tenants, what a tenant is answered, errors included, is what it is answered
in the run of its own operations, with schemas kept ready in either run or
not. The same is true if whatever is kept ready gets lost at any time, if
reads are disturbed, and if data is written to the store itself: a tenant is
answered as if only its own events happened. -/
theorem tenants_do_not_interfere (tenant : String)
    {settings settings' : Settings}
    (hlimits : settings'.engine = settings.engine) :
    (∀ operations : List Operation,
      ((operations.zip
          (({ settings } : Service engine).run operations).1).filter fun p =>
            p.1.tenant == tenant).map Prod.snd
        = (({ settings := settings' } : Service engine).run
            (operations.filter fun o => o.tenant == tenant)).1) ∧
    (∀ events : List Event,
      ({ settings } : Service engine).answersTo tenant events
        = ({ settings := settings' } : Service engine).answersTo tenant
            (events.filter (Event.isOf tenant))) := by
  have hevents : ∀ events : List Event,
      ({ settings } : Service engine).answersTo tenant events
        = ({ settings := settings' } : Service engine).answersTo tenant
            (events.filter (Event.isOf tenant)) := by
    refine answersTo_eq_of_view (coherent_new settings)
      (coherent_new settings') ?_
    show View.mk settings'.engine _ _ = View.mk settings.engine _ _
    rw [hlimits]
  refine ⟨fun operations => ?_, hevents⟩
  have hown : ∀ o ∈ operations.filter fun o => o.tenant == tenant,
      o.tenant = tenant :=
    fun o ho => beq_iff_eq.mp (List.mem_filter.mp ho).2
  rw [← answersTo_operations, hevents, List.filter_map, ← answersTo_own _ hown]
  rfl

/-- Whether someone views a document of a tenant. -/
def viewOf (tenant : String) : CheckRequest where
  tenant := tenant
  entity := ⟨"document", "d"⟩
  permission := "view"
  subject := ⟨"user", "u"⟩

/-- What two tenants do in turns. They give one name to different versions,
one of them writes who owns a document, and both ask who views it. -/
def sharedOperations : List Operation :=
  [.writeSchema "t" ownedSource "v" 0,
    .writeSchema "other" "entity document {}" "v" 0,
    .check (viewOf "other"),
    .writeRelationships "t" [⟨"document", "d", "owner", "user", "u", none⟩],
    .deleteRelationships "other" { entityType := some "document" },
    .check (viewOf "t")]

/-- Whether it is answered that something is allowed. -/
def isAllowed : Answer → Bool
  | .allowed b => b
  | _ => false

/-- The tenant with an owner is answered as it is alone and without a
cache. -/
theorem shared_operations_do_not_interfere :
    (((sharedOperations.zip
        (({} : Service Condition.engine).run sharedOperations).1).filter
          fun p => p.1.tenant == "t").map Prod.snd).map isAllowed
      = [false, false, true] := by
  have halone : (({ settings := { schemaCache := { enabled := false } } } :
      Service Condition.engine).run (sharedOperations.filter fun o =>
        o.tenant == "t")).1.map isAllowed = [false, false, true] := by
    decide +kernel
  have hlimits : ({ schemaCache := { enabled := false } } : Settings).engine
      = ({} : Settings).engine := rfl
  rw [(tenants_do_not_interfere "t" hlimits).1 sharedOperations, halone]

end Service

end Entitlement
