import Entitlement.Proofs.Access.OtherSchemas
import Entitlement.Proofs.Service.Written

/-!
# Versions stay as they are

A version of a schema that was written is there for good. Whatever a service
does afterwards, the version is read as the schema that its text compiled to
when it was written, and what is asked over it depends on no other version:
while tuples and attributes stay, so do the answers, however many versions
are written in the meantime (`Service.Retains`).

The versions that were written for a tenant are listed by their times and
then by their names, each once, and a read that names no version is one of
the first of the list (`Service.Lists`). The times may be any, so that a
version may come to stand behind those before it.
-/

namespace Entitlement

/-- The version that a question about permissions names, if it does. -/
def Operation.pin? : Operation → Option String
  | check request => request.version
  | checkMultiple request _ => request.version
  | subjectPermission request => request.version
  | expand request => request.version
  | lookupEntity request => request.version
  | lookupSubject request => request.version
  | _ => none

namespace Service

variable {engine : ExpressionEngine} {s s' : Service engine} {tenant : String}

/-! ## While facts stay -/

/-- Whether an event leaves all that queries read, apart from schemas: no
tuples and no attributes are written, and reads go as before. -/
def Event.leavesFacts : Event → Bool
  | operation (.writeRelationships ..) | operation (.deleteRelationships ..)
  | operation (.writeAttributes ..) | operation (.deleteAttributes ..) => false
  | operation _ | forget .. => true
  | disturb _ | storeSchema .. | storeTuples .. | storeAttributes .. => false

theorem Event.isOwn_of_leavesFacts {event : Event}
    (h : event.leavesFacts = true) : event.isOwn = true := by
  cases event with
  | operation | forget | disturb => rfl
  | storeSchema | storeTuples | storeAttributes => cases h

/-- **Whether queries read the same in two services**, apart from schemas. -/
structure SameFacts (s s' : Service engine) : Prop where
  settings : s'.settings = s.settings
  faults : s'.faults = s.faults
  tuples : ∀ tenant, (s'.store.tenant tenant).tuples
    = (s.store.tenant tenant).tuples
  attributes : ∀ tenant, (s'.store.tenant tenant).attributes
    = (s.store.tenant tenant).attributes

namespace SameFacts

theorem refl (s : Service engine) : s.SameFacts s :=
  ⟨rfl, rfl, fun _ => rfl, fun _ => rfl⟩

theorem trans {s'' : Service engine} (h : s.SameFacts s')
    (h' : s'.SameFacts s'') : s.SameFacts s'' where
  settings := h'.settings.trans h.settings
  faults := h'.faults.trans h.faults
  tuples tenant := (h'.tuples tenant).trans (h.tuples tenant)
  attributes tenant := (h'.attributes tenant).trans (h.attributes tenant)

/-- To keep something ready leaves the facts. -/
theorem remember (s : Service engine) (tenant : String)
    (version : Option String) : s.SameFacts (s.remember tenant version) := by
  unfold Service.remember
  split <;> exact ⟨rfl, rfl, fun _ => rfl, fun _ => rfl⟩

theorem answer {α : Type} (tenant : String) (version : Option String)
    (query : Resolver → Except Failure α) (shown : α → Answer) :
    s.SameFacts (s.answer tenant version query shown).2 := by
  unfold Service.answer
  simp only
  split <;> exact remember s tenant version

/-- A write of a schema leaves the facts. -/
theorem writeSchema (s : Service engine) (tenant source version : String)
    (createdAt : Int) :
    s.SameFacts
      (s.apply (.writeSchema tenant source version createdAt)).2 := by
  rcases s.apply_writeSchema_cases tenant source version createdAt with
    ⟨store, -, -, hstore, happly⟩ | ⟨e, happly⟩
  · obtain ⟨-, rfl⟩ := Store.writeSchema_eq_ok hstore
    rw [happly]
    refine ⟨rfl, rfl, fun other => ?_, fun other => ?_⟩ <;>
    · by_cases hother : other = tenant
      · subst hother
        rw [Store.tenant_setTenant_self]
      · rw [Store.tenant_setTenant_of_ne _ _ hother]
  · rw [happly]
    exact refl s

theorem meet (s : Service engine) {event : Event}
    (h : event.leavesFacts = true) : s.SameFacts (s.meet event) := by
  cases event with
  | operation operation =>
    cases operation with
    | writeSchema owner source version createdAt =>
      exact writeSchema s owner source version createdAt
    | readSchema owner version =>
      simp only [Service.meet, Service.apply]
      split <;> exact remember s owner version
    | schemaVersions owner =>
      simp only [Service.meet, Service.apply]
      split <;> exact refl s
    | writeRelationships | deleteRelationships | writeAttributes
    | deleteAttributes => cases h
    | check => exact answer ..
    | checkMultiple => exact answer ..
    | subjectPermission => exact answer ..
    | expand => exact answer ..
    | lookupEntity => exact answer ..
    | lookupSubject => exact answer ..
  | forget => exact ⟨rfl, rfl, fun _ => rfl, fun _ => rfl⟩
  | disturb | storeSchema | storeTuples | storeAttributes => cases h

theorem after (s : Service engine) {events : List Event}
    (h : ∀ event ∈ events, event.leavesFacts = true) :
    s.SameFacts (s.after events) := by
  induction events generalizing s with
  | nil => exact refl s
  | cons event events ih =>
    rw [List.forall_mem_cons] at h
    exact (meet s h.1).trans (ih (s.meet event) h.2)

/-- **What is asked of two services is answered from the same things**,
apart from schemas. -/
theorem resolver_eq (h : s.SameFacts s') (tenant : String) :
    s'.bare.resolver tenant = (s.bare.resolver tenant).withSchemas
      (s'.bare.resolver tenant).schema := by
  unfold resolver resolverWithin bare Resolver.withSchemas
  simp only [h.settings, h.faults]
  rw [Store.queryTuples_eq_of_tuples (h.tuples tenant),
    Store.queryAttributes_eq_of_attributes (h.attributes tenant)]

end SameFacts

/-! ## What stays -/

/-- Whatever a service does, its store keeps its versions. -/
theorem keepsVersions_after (s : Service engine) {events : List Event}
    (h : ∀ event ∈ events, event.isOwn = true) :
    s.store.KeepsVersions (s.after events).store := by
  intro tenant version stored hread
  rw [Store.readSchema_eq_ok_iff] at hread ⊢
  rw [schemas_after s tenant h, List.find?_append, hread]
  rfl

/-- A name that is not empty means its version. -/
theorem meant_of_readSchema {version : String} {stored : StoredSchema}
    (hname : version ≠ "")
    (hread : s.store.readSchema tenant version = .ok stored) :
    s.store.meant tenant (some version) = .ok stored := by
  have hmeant : versionMeant (some version) = some version := by
    simp [versionMeant, hname]
  unfold Store.meant
  rw [hmeant]
  exact hread

/-- **What a query means is read as what it compiles to.** -/
theorem Coherent.fst_apply_readSchema (h : s.Coherent)
    (hblank : isBlankText tenant = false) {version : Option String}
    {stored : StoredSchema} (hmeant : s.store.meant tenant version = .ok stored)
    {schema : Schema}
    (hcompile : stored.compile engine.refusal? tenant = .ok schema) :
    (s.apply (.readSchema tenant version)).1 = .schema schema := by
  have hresolve : ((s.remember tenant version).resolver tenant).resolveSchema
      version = .ok schema := by
    rw [← hcompile]
    refine (h.remember tenant version).resolveSchema_of_meant ?_
    rw [store_remember]
    exact hmeant
  have hread : (s.remember tenant version).readSchema tenant version
      = .ok schema := by
    unfold readSchema
    rw [requireTenant_of_not_blank hblank, hresolve]
    rfl
  simp only [Service.apply, hread]

/-- A query over a version that two services have is answered alike while
facts stay. -/
theorem Coherent.fst_answer_eq (h : s.Coherent) (h' : s'.Coherent)
    (hfacts : s.SameFacts s') {version : Option String}
    {stored : StoredSchema} (hmeant : s.store.meant tenant version = .ok stored)
    (hmeant' : s'.store.meant tenant version = .ok stored) {α : Type}
    {query : Resolver → Except Failure α}
    (hquery : ∀ {r : Resolver} {schema : Option String → Except Failure Schema},
      schema (versionMeant version) = r.resolveSchema version →
        query (r.withSchemas schema) = query r)
    (shown : α → Answer) :
    (s'.answer tenant version query shown).1
      = (s.answer tenant version query shown).1 := by
  -- without what is kept ready, both compile the same stored version
  have hschema : (s'.bare.resolver tenant).schema (versionMeant version)
      = (s.bare.resolver tenant).resolveSchema version := by
    rw [← h.resolver_eq, ← h'.resolver_eq, h.resolveSchema_of_meant hmeant]
    exact h'.resolveSchema_of_meant hmeant'
  rw [h.answer_eq, h'.answer_eq, hfacts.resolver_eq, hquery hschema]

/-- **A question over a version that two services have is answered alike**
while facts stay. -/
theorem Coherent.fst_apply_eq_of_pin (h : s.Coherent) (h' : s'.Coherent)
    (hfacts : s.SameFacts s') {operation : Operation} {version : String}
    (htenant : operation.tenant = tenant)
    (hpin : operation.pin? = some version) {stored : StoredSchema}
    (hmeant : s.store.meant tenant (some version) = .ok stored)
    (hmeant' : s'.store.meant tenant (some version) = .ok stored) :
    (s'.apply operation).1 = (s.apply operation).1 := by
  subst htenant
  rw [← hpin] at hmeant hmeant'
  cases operation with
  | check =>
    exact h.fst_answer_eq h' hfacts hmeant hmeant'
      Resolver.check_withSchemas _
  | checkMultiple request permissions =>
    exact h.fst_answer_eq h' hfacts hmeant hmeant'
      (fun hs => Resolver.checkMultiple_withSchemas hs permissions) _
  | subjectPermission =>
    exact h.fst_answer_eq h' hfacts hmeant hmeant'
      Resolver.subjectPermission_withSchemas _
  | expand =>
    exact h.fst_answer_eq h' hfacts hmeant hmeant'
      Resolver.expand_withSchemas _
  | lookupEntity =>
    exact h.fst_answer_eq h' hfacts hmeant hmeant'
      Resolver.lookupEntity_withSchemas _
  | lookupSubject =>
    exact h.fst_answer_eq h' hfacts hmeant hmeant'
      Resolver.lookupSubject_withSchemas _
  | _ => cases hpin

/-- **Whether a service has a version for good**: whatever it does, the
version is read as the same schema, and while facts stay, what is asked over
the version is answered alike. -/
def Retains (s : Service engine) (tenant version : String) (schema : Schema) :
    Prop :=
  ∀ later : List Event, (∀ event ∈ later, event.isOwn = true) →
    ((s.after later).apply (.readSchema tenant (some version))).1
        = .schema schema ∧
    ∀ further : List Event, (∀ event ∈ further, event.leavesFacts = true) →
      ∀ operation : Operation, operation.tenant = tenant →
        operation.pin? = some version →
        (((s.after later).after further).apply operation).1
          = ((s.after later).apply operation).1

/-- **A stored version is there for good.** -/
theorem Coherent.retains (h : s.Coherent)
    (hblank : isBlankText tenant = false) {version : String}
    (hname : version ≠ "") {stored : StoredSchema}
    (hread : s.store.readSchema tenant version = .ok stored) {schema : Schema}
    (hcompile : stored.compile engine.refusal? tenant = .ok schema) :
    s.Retains tenant version schema := by
  intro later hlater
  have hread' := s.keepsVersions_after hlater tenant version stored hread
  have hmeant' := meant_of_readSchema hname hread'
  have h' := h.after later
  refine ⟨h'.fst_apply_readSchema hblank hmeant' hcompile, ?_⟩
  intro further hfurther operation htenant hpin
  have hown : ∀ event ∈ further, event.isOwn = true :=
    fun event hevent => Event.isOwn_of_leavesFacts (hfurther event hevent)
  have hread'' := (s.after later).keepsVersions_after hown tenant version
    stored hread'
  exact h'.fst_apply_eq_of_pin (h'.after further) (.after _ hfurther) htenant
    hpin hmeant' (meant_of_readSchema hname hread'')

/-- **A version that is written is there for good**, as what its text
compiles to. -/
theorem Coherent.retains_of_writeSchema (h : s.Coherent)
    {source version name : String} {createdAt : Int}
    (hname : (s.apply (.writeSchema tenant source version createdAt)).1
      = .version name) :
    ∃ schema,
      compileSchema engine.refusal? tenant name source createdAt
        = .ok schema ∧
      (s.apply (.writeSchema tenant source version createdAt)).2.Retains
        tenant name schema := by
  have h' := h.apply (.writeSchema tenant source version createdAt)
  rcases s.apply_writeSchema_cases tenant source version createdAt with
    ⟨store, hblank, ⟨schema, hschema⟩, hstore, happly⟩ | ⟨e, happly⟩
  · rw [happly] at hname h'
    cases hname
    have hread : store.readSchema tenant version
        = .ok ⟨version, source, createdAt⟩ :=
      (Store.readSchema_writeSchema hstore).mpr (.inr ⟨rfl, rfl, rfl⟩)
    refine ⟨schema, hschema, ?_⟩
    rw [happly]
    exact h'.retains hblank (Store.version_ne_empty hstore) hread hschema
  · rw [happly] at hname
    cases hname

/-! ## What is listed -/

/-- **Whether some versions are those that a tenant is shown**: their names
are listed, and a read without a version, or with an empty one, reads the
first of them. -/
structure Lists (s : Service engine) (tenant : String)
    (listed : List StoredSchema) : Prop where
  names : (s.apply (.schemaVersions tenant)).1
    = .versions (listed.map StoredSchema.version)
  first : ∀ first ∈ listed.head?, ∃ schema,
    first.compile engine.refusal? tenant = .ok schema ∧
      ∀ version ∈ [none, some ""],
        (s.apply (.readSchema tenant version)).1 = .schema schema
  nothing : listed = [] → ∀ version ∈ [none, some ""],
    (s.apply (.readSchema tenant version)).1
      = .error (.failure (.schemaNotFound tenant none))

/-- Without a version, or with an empty one, the latest is meant. -/
theorem meant_of_no_version {version : Option String}
    (h : version ∈ [none, some ""]) (store : Store) (tenant : String) :
    store.meant tenant version = store.latestSchema tenant := by
  have hmeant : versionMeant version = none := by
    rcases List.mem_pair.mp h with rfl | rfl <;> rfl
  unfold Store.meant
  rw [hmeant]

/-- Where no version is stored, none is read. -/
theorem Coherent.fst_apply_readSchema_of_nothing (h : s.Coherent)
    (hblank : isBlankText tenant = false) {version : Option String}
    (hmeant : s.store.meant tenant version
      = .error (.schemaNotFound tenant none)) :
    (s.apply (.readSchema tenant version)).1
      = .error (.failure (.schemaNotFound tenant none)) := by
  have hread : (s.remember tenant version).readSchema tenant version
      = .error (.failure (.schemaNotFound tenant none)) := by
    unfold readSchema resolver
    rw [requireTenant_of_not_blank hblank,
      (h.remember tenant version).resolveSchema_eq, store_remember, hmeant]
    rfl
  simp only [Service.apply, hread]

/-- **Stored versions that compile are those that a tenant is shown**, sorted
with the newest first. -/
theorem Coherent.lists (h : s.Coherent) (hdistinct : s.HasDistinctVersions)
    (hblank : isBlankText tenant = false)
    (hcompile : ∀ stored ∈ (s.store.tenant tenant).schemas,
      ∃ schema, stored.compile engine.refusal? tenant = .ok schema) :
    s.Lists tenant
      (StoredSchema.newestFirst (s.store.tenant tenant).schemas) where
  names := by
    have hversions : s.schemaVersions tenant
        = .ok (s.store.schemaVersions tenant) := by
      unfold schemaVersions
      rw [requireTenant_of_not_blank hblank]
      rfl
    simp only [Service.apply, hversions]
    rfl
  first := by
    intro first hfirst
    rw [Option.mem_def, ← StoredSchema.newest?_eq_head? (hdistinct tenant)]
      at hfirst
    obtain ⟨schema, hschema⟩ :=
      hcompile first (StoredSchema.newest?_spec hfirst).1
    refine ⟨schema, hschema, fun version hversion => ?_⟩
    refine h.fst_apply_readSchema hblank ?_ hschema
    rw [meant_of_no_version hversion, Store.latestSchema, hfirst]
  nothing := by
    intro hnil version hversion
    refine h.fst_apply_readSchema_of_nothing hblank ?_
    have hnewest := StoredSchema.newest?_eq_head? (hdistinct tenant)
    rw [hnil] at hnewest
    rw [meant_of_no_version hversion, Store.latestSchema, hnewest]
    rfl

/-! ## The versions of a service -/

/-- **Versions stay, and the latest is the first of them.** In every state
that a service comes to:

* A version that is written compiles and is there for good, as what its text
  compiles to.
* The versions that a tenant is shown are those that were written for it,
  each once, by their times and then by their names, with the greatest first.
  A blank tenant is refused, and none was written for it.
* A write that fails changes nothing. -/
theorem versions_stay (settings : Settings) {events : List Event}
    (hown : ∀ event ∈ events, event.isOwn = true) (tenant : String) :
    let s := ({ settings } : Service engine).after events
    (∀ source version createdAt name,
      (s.apply (.writeSchema tenant source version createdAt)).1
          = .version name →
        ∃ schema,
          compileSchema engine.refusal? tenant name source createdAt
            = .ok schema ∧
          (s.apply (.writeSchema tenant source version createdAt)).2.Retains
            tenant name schema) ∧
    (∃ listed : List StoredSchema,
      listed.Perm (({ settings } : Service engine).written tenant events) ∧
      (listed.map StoredSchema.version).Nodup ∧
      (listed.Pairwise fun a b => b.rank < a.rank) ∧
      (isBlankText tenant = false → s.Lists tenant listed) ∧
      (isBlankText tenant = true → listed = [] ∧
        (s.apply (.schemaVersions tenant)).1
          = .error (.failure (.blankField "tenant_id")))) ∧
    ∀ source version createdAt e,
      (s.apply (.writeSchema tenant source version createdAt)).1 = .error e →
        (s.apply (.writeSchema tenant source version createdAt)).2 = s := by
  intro s
  have hcoherent : s.Coherent := (coherent_new settings).after events
  have hdistinct : s.HasDistinctVersions :=
    hasDistinctVersions_after settings events
  have hschemas : (s.store.tenant tenant).schemas
      = ({ settings } : Service engine).written tenant events :=
    schemas_after { settings } tenant hown
  refine ⟨fun _ _ _ _ hname => hcoherent.retains_of_writeSchema hname, ?_,
    fun _ _ _ _ => snd_apply_writeSchema_of_error⟩
  rw [← hschemas]
  refine ⟨StoredSchema.newestFirst (s.store.tenant tenant).schemas,
    StoredSchema.perm_newestFirst _,
    StoredSchema.nodup_newestFirst (hdistinct tenant),
    StoredSchema.pairwise_newestFirst_of_nodup (hdistinct tenant), ?_, ?_⟩
  · intro hblank
    refine hcoherent.lists hdistinct hblank fun stored hstored => ?_
    rw [hschemas] at hstored
    exact (compile_of_mem_written hstored).2
  · intro hblank
    rw [hschemas, written_of_blank hblank]
    refine ⟨List.mergeSort_nil, ?_⟩
    simp only [Service.apply, schemaVersions, requireTenant_of_blank hblank]
    rfl

/-- The name of a version that is answered. -/
def versionName? : Answer → Option String
  | .version name => some name
  | _ => none

theorem versionName?_eq_some_iff {answer : Answer} {name : String} :
    versionName? answer = some name ↔ answer = .version name := by
  cases answer <;> simp [versionName?]

/-- A version with a late time. -/
def lateVersion : List Event :=
  [.operation (.writeSchema "t" "entity document {}" "late" 1)]

/-- A version that is written later with an earlier time stays as it is,
too, and what is asked over it. -/
theorem early_version_stays :
    (∀ event ∈ lateVersion, event.isOwn = true) ∧
    ∃ schema,
      compileSchema Condition.engine.refusal? "t" "early" "entity user {}" 0
        = .ok schema ∧
      ((({} : Service Condition.engine).after lateVersion).apply
        (.writeSchema "t" "entity user {}" "early" 0)).2.Retains
          "t" "early" schema := by
  have hown : ∀ event ∈ lateVersion, event.isOwn = true := by
    simp [lateVersion, Event.isOwn]
  have hname : ((({} : Service Condition.engine).after lateVersion).apply
      (.writeSchema "t" "entity user {}" "early" 0)).1
        = .version "early" := by
    rw [← versionName?_eq_some_iff]
    decide +kernel
  exact ⟨hown, (versions_stay {} hown "t").1 _ _ _ _ hname⟩

end Service

end Entitlement
