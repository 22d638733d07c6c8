import Entitlement.Proofs.Outcome
import Entitlement.Service.Operation

/-!
# What a service comes to in the course of time

A service meets events: operations, a loss of what it keeps ready, another
disturbance of its reads, and writes that go to its store past it.
`Service.after` is the service behind a list of them.

However long the list, the service stays *coherent*: every stored version
of a schema is read back by its name, every schema that is kept is what its
stored version compiles to, and every program that is kept is what its text
compiles to (`Service.Coherent.after`). In a coherent service the caches do
not show: a schema that a query means is the stored version, compiled
(`Service.Coherent.resolveSchema_eq`), and an expression has the truth
value that the engine gives it.
-/

namespace Entitlement

/-! ## Stored versions -/

/-- The newest of some versions is one of them. -/
theorem StoredSchema.mem_of_newest? {schemas : List StoredSchema}
    {newest : StoredSchema}
    (h : StoredSchema.newest? schemas = some newest) : newest ∈ schemas := by
  induction schemas generalizing newest with
  | nil => cases h
  | cons first rest ih =>
    unfold StoredSchema.newest? at h
    split at h
    next =>
      cases h
      exact List.mem_cons_self
    next t ht =>
      cases h
      split
      · exact List.mem_cons_of_mem first (ih ht)
      · exact List.mem_cons_self

namespace Store

/-- **Whether every stored version is read back by its name.** -/
def ReadsBack (s : Store) : Prop :=
  ∀ tenant, ∀ stored ∈ (s.tenant tenant).schemas,
    s.readSchema tenant stored.version = .ok stored

/-- **The stored version that a query means**: the one that it names, or
the newest. -/
def meant (s : Store) (tenant : String) (version : Option String) :
    Except StoreError StoredSchema :=
  match versionMeant version with
  | some version => s.readSchema tenant version
  | none => s.latestSchema tenant

/-- Whether all that a store reads by the name of a version, another store
reads too. -/
def KeepsVersions (s s' : Store) : Prop :=
  ∀ tenant version stored, s.readSchema tenant version = .ok stored →
    s'.readSchema tenant version = .ok stored

/-- Whether two stores have the same versions. -/
def SameVersions (s s' : Store) : Prop :=
  ∀ tenant, (s'.tenant tenant).schemas = (s.tenant tenant).schemas

theorem readSchema_eq_ok_iff {s : Store} {tenant version : String}
    {stored : StoredSchema} :
    s.readSchema tenant version = .ok stored ↔
      (s.tenant tenant).schemas.find? (fun t => t.version == version)
        = some stored := by
  unfold readSchema
  cases (s.tenant tenant).schemas.find? fun t => t.version == version <;> simp

/-- What is read by its name is stored. -/
theorem mem_of_readSchema {s : Store} {tenant version : String}
    {stored : StoredSchema} (h : s.readSchema tenant version = .ok stored) :
    stored ∈ (s.tenant tenant).schemas ∧ stored.version = version := by
  rw [readSchema_eq_ok_iff] at h
  exact ⟨List.mem_of_find?_eq_some h, by simpa using List.find?_some h⟩

/-- The newest version is stored. -/
theorem mem_of_latestSchema {s : Store} {tenant : String}
    {stored : StoredSchema} (h : s.latestSchema tenant = .ok stored) :
    stored ∈ (s.tenant tenant).schemas := by
  unfold latestSchema at h
  split at h
  next newest hn =>
    cases h
    exact StoredSchema.mem_of_newest? hn
  next => cases h

theorem SameVersions.readSchema_eq {s s' : Store} (h : s.SameVersions s')
    (tenant version : String) :
    s'.readSchema tenant version = s.readSchema tenant version := by
  unfold readSchema
  rw [h tenant]

theorem SameVersions.keepsVersions {s s' : Store} (h : s.SameVersions s') :
    s.KeepsVersions s' :=
  fun tenant version _ hs => (h.readSchema_eq tenant version).trans hs

theorem SameVersions.readsBack {s s' : Store} (h : s.SameVersions s')
    (hs : s.ReadsBack) : s'.ReadsBack := by
  intro tenant stored hmem
  rw [h tenant] at hmem
  exact (h.readSchema_eq tenant stored.version).trans (hs tenant stored hmem)

/-- Data of which the versions stay is written without a change of
versions. -/
theorem sameVersions_setTenant (s : Store) (name : String) (data : TenantData)
    (h : data.schemas = (s.tenant name).schemas) :
    s.SameVersions (s.setTenant name data) := by
  intro tenant
  by_cases ht : tenant = name
  · subst ht
    rw [tenant_setTenant_self, h]
  · rw [tenant_setTenant_of_ne s data ht]

/-- The data of a tenant once a version is written: the version stands
behind the others, none of which has its name. -/
theorem writeSchema_eq_ok {s s' : Store} {tenant : String}
    {schema : StoredSchema} (h : s.writeSchema tenant schema = .ok s') :
    (∀ t ∈ (s.tenant tenant).schemas, t.version ≠ schema.version) ∧
      s' = s.setTenant tenant { s.tenant tenant with
        schemas := (s.tenant tenant).schemas ++ [schema] } := by
  obtain ⟨-, -, h⟩ := Outcome.bind_eq_ok_iff.mp h
  obtain ⟨-, -, h⟩ := Outcome.bind_eq_ok_iff.mp h
  simp only at h
  split at h
  next => cases h
  next hnew =>
    rw [Outcome.pure_eq_ok_iff] at h
    refine ⟨fun t ht he => hnew ?_, h.symm⟩
    exact List.any_eq_true.mpr ⟨t, ht, beq_iff_eq.mpr he⟩

/-- **A new version is read back, and so are those before it.** -/
theorem readSchema_writeSchema {s s' : Store} {tenant : String}
    {schema : StoredSchema} (h : s.writeSchema tenant schema = .ok s')
    {other version : String} {stored : StoredSchema} :
    s'.readSchema other version = .ok stored ↔
      s.readSchema other version = .ok stored ∨
        other = tenant ∧ version = schema.version ∧ stored = schema := by
  obtain ⟨hnew, rfl⟩ := writeSchema_eq_ok h
  rw [readSchema_eq_ok_iff, readSchema_eq_ok_iff]
  by_cases ht : other = tenant
  · subst ht
    rw [tenant_setTenant_self, List.find?_append, List.find?_singleton]
    cases hfind : (s.tenant other).schemas.find? fun t =>
        t.version == version with
    | some found =>
      -- the name is taken, so it is not that of the new version
      have hne : version ≠ schema.version := by
        rintro rfl
        exact hnew found (List.mem_of_find?_eq_some hfind)
          (by simpa using List.find?_some hfind)
      simp [hne]
    | none =>
      by_cases hv : version = schema.version
      · simp [hv, eq_comm]
      · have hne : (schema.version == version) = false :=
          beq_eq_false_iff_ne.mpr (Ne.symm hv)
        simp [hv, hne]
  · rw [tenant_setTenant_of_ne s _ ht]
    simp [ht]

theorem keepsVersions_writeSchema {s s' : Store} {tenant : String}
    {schema : StoredSchema} (h : s.writeSchema tenant schema = .ok s') :
    s.KeepsVersions s' :=
  fun _ _ _ hs => (readSchema_writeSchema h).mpr (Or.inl hs)

theorem readsBack_writeSchema {s s' : Store} {tenant : String}
    {schema : StoredSchema} (h : s.writeSchema tenant schema = .ok s')
    (hs : s.ReadsBack) : s'.ReadsBack := by
  intro other stored hmem
  rw [readSchema_writeSchema h]
  obtain ⟨-, rfl⟩ := writeSchema_eq_ok h
  by_cases ht : other = tenant
  · subst ht
    rw [tenant_setTenant_self, List.mem_append, List.mem_singleton] at hmem
    rcases hmem with hmem | rfl
    · exact Or.inl (hs other stored hmem)
    · exact Or.inr ⟨rfl, rfl, rfl⟩
  · rw [tenant_setTenant_of_ne s _ ht] at hmem
    exact Or.inl (hs other stored hmem)

/-- **Tuples are written** only if the fields of all of them are in order, and
then they are added to those of the tenant. -/
theorem writeTuples_eq_ok {s s' : Store} {tenant : String}
    {tuples : List Tuple} (h : s.writeTuples tenant tuples = .ok s') :
    (∀ t ∈ tuples, t.checkFields = .ok ()) ∧
      s' = s.setTenant tenant { s.tenant tenant with
        tuples := insertAllBy Tuple.sortKey (s.tenant tenant).tuples
          tuples } := by
  obtain ⟨-, -, h⟩ := Outcome.bind_eq_ok_iff.mp h
  obtain ⟨⟨⟩, hfields, h⟩ := Outcome.bind_eq_ok_iff.mp h
  cases h
  exact ⟨Outcome.forM_eq_ok_iff.mp hfields, rfl⟩

/-- Tuples are deleted by leaving those that the filter does not admit. -/
theorem deleteTuples_eq_ok {s s' : Store} {tenant : String}
    {filter : TupleFilter} {n : Nat}
    (h : s.deleteTuples tenant filter = .ok (n, s')) :
    s' = s.setTenant tenant { s.tenant tenant with
      tuples := (s.tenant tenant).tuples.filter
        fun t => !filter.admits t } := by
  obtain ⟨-, -, h⟩ := Outcome.bind_eq_ok_iff.mp h
  split at h
  · cases h
  · simp only [List.partition_eq_filter_filter] at h
    cases h
    rfl

/-- Attributes are written over those of the tenant. -/
theorem writeAttributes_eq_ok {s s' : Store} {tenant : String}
    {attributes : List (Attribute Json)}
    (h : s.writeAttributes tenant attributes = .ok s') :
    s' = s.setTenant tenant { s.tenant tenant with
      attributes := insertAllBy Attribute.sortKey
        (s.tenant tenant).attributes attributes } := by
  obtain ⟨-, -, h⟩ := Outcome.bind_eq_ok_iff.mp h
  obtain ⟨-, -, h⟩ := Outcome.bind_eq_ok_iff.mp h
  cases h
  rfl

/-- Attributes are deleted by leaving the others. -/
theorem snd_deleteAttributes (s : Store) (tenant : String)
    (entity : EntityRef) (name : Option String) :
    (s.deleteAttributes tenant entity name).2
      = s.setTenant tenant { s.tenant tenant with
          attributes := (s.tenant tenant).attributes.filter
            fun a => !(a.isOf entity && agrees name a.name) } := by
  unfold deleteAttributes
  simp only [List.partition_eq_filter_filter]
  rfl

theorem sameVersions_writeTuples {s s' : Store} {tenant : String}
    {tuples : List Tuple} (h : s.writeTuples tenant tuples = .ok s') :
    s.SameVersions s' := by
  obtain ⟨-, rfl⟩ := writeTuples_eq_ok h
  exact sameVersions_setTenant s tenant _ rfl

theorem sameVersions_deleteTuples {s s' : Store} {tenant : String}
    {filter : TupleFilter} {n : Nat}
    (h : s.deleteTuples tenant filter = .ok (n, s')) : s.SameVersions s' := by
  obtain rfl := deleteTuples_eq_ok h
  exact sameVersions_setTenant s tenant _ rfl

theorem sameVersions_writeAttributes {s s' : Store} {tenant : String}
    {attributes : List (Attribute Json)}
    (h : s.writeAttributes tenant attributes = .ok s') :
    s.SameVersions s' := by
  obtain rfl := writeAttributes_eq_ok h
  exact sameVersions_setTenant s tenant _ rfl

theorem sameVersions_deleteAttributes (s : Store) (tenant : String)
    (entity : EntityRef) (name : Option String) :
    s.SameVersions (s.deleteAttributes tenant entity name).2 :=
  sameVersions_setTenant s tenant _ rfl

end Store

/-! ## What is kept ready -/

namespace SchemaCache

variable {cache : SchemaCache} {check : ExpressionCheck} {store store' : Store}

/-- A cache is as sound for a store that keeps its versions. -/
theorem Sound.of_keepsVersions (h : cache.Sound check store)
    (hs : store.KeepsVersions store') : cache.Sound check store' := by
  intro tenant version schema hfind
  obtain ⟨stored, hread, hcompile⟩ := h tenant version schema hfind
  exact ⟨stored, hs tenant version stored hread, hcompile⟩

/-- Keeping what a stored version compiles to is sound. -/
theorem Sound.insert (h : cache.Sound check store) (capacity : Nat)
    {tenant version : String} {stored : StoredSchema} {schema : Schema}
    (hread : store.readSchema tenant version = .ok stored)
    (hcompile : stored.compile check tenant = .ok schema) :
    (cache.insert capacity tenant version schema).Sound check store := by
  intro tenant' version' schema' hfind
  have hfull : List.lookup (tenant', version')
      (((tenant, version), schema) :: cache.entries) = some schema' :=
    (List.take_prefix capacity _).lookup_eq_some hfind
  rw [List.lookup_cons] at hfull
  split at hfull
  next heq =>
    cases hfull
    simp only [beq_iff_eq, Prod.mk.injEq] at heq
    obtain ⟨rfl, rfl⟩ := heq
    exact ⟨stored, hread, hcompile⟩
  next => exact h tenant' version' schema' hfull

/-- A version that is read back is kept only as what it compiles to. -/
theorem Sound.compiled_eq (h : cache.Sound check store) {tenant : String}
    {stored : StoredSchema}
    (hread : store.readSchema tenant stored.version = .ok stored) :
    cache.compiled check tenant stored = stored.compile check tenant := by
  unfold compiled
  split
  next schema hfind =>
    obtain ⟨other, hother, hcompile⟩ := h tenant _ schema hfind
    cases hread.symm.trans hother
    exact hcompile.symm
  next => rfl

/-- **A sound cache reads as one that keeps nothing**, over a store whose
versions are read back. -/
theorem Sound.read_eq (h : cache.Sound check store) (hb : store.ReadsBack)
    (tenant : String) (version : Option String) :
    cache.read check store tenant version
      = ({} : SchemaCache).read check store tenant version := by
  cases version with
  | none =>
    unfold read
    simp only
    cases hlatest : store.latestSchema tenant with
    | error e => rfl
    | ok stored =>
      have hmem := Store.mem_of_latestSchema hlatest
      exact h.compiled_eq (hb tenant stored hmem)
  | some name =>
    unfold read
    simp only
    split
    next schema hfind =>
      obtain ⟨stored, hread, hcompile⟩ := h tenant name schema hfind
      rw [hread]
      exact hcompile.symm
    next =>
      cases hread : store.readSchema tenant name with
      | error e => rfl
      | ok stored =>
        have hname := (Store.mem_of_readSchema hread).2
        exact h.compiled_eq (hname.symm ▸ hread)

/-- What is left of a cache was there before. -/
theorem find?_of_evict {keeps : String × String → Bool}
    {tenant version : String} {schema : Schema}
    (h : (cache.evict keeps).find? tenant version = some schema) :
    cache.find? tenant version = some schema := by
  obtain ⟨entries⟩ := cache
  unfold find? evict at h
  unfold find?
  simp only at h ⊢
  induction entries with
  | nil => exact h
  | cons entry entries ih =>
    by_cases hkey : (tenant, version) = entry.1
    · -- the entry of the name goes or stays with its name
      by_cases hkeep : keeps entry.1 = true
      · rw [List.filter_cons, if_pos hkeep, List.lookup_cons,
          beq_iff_eq.mpr hkey] at h
        rw [List.lookup_cons, beq_iff_eq.mpr hkey]
        exact h
      · have hall : ∀ other ∈ entries.filter fun entry => keeps entry.1,
            ((tenant, version) != other.1) = true := by
          intro other hother
          rw [bne_iff_ne]
          rintro heq
          rw [← hkey, heq] at hkeep
          exact hkeep (List.mem_filter.mp hother).2
        rw [List.filter_cons, if_neg hkeep, List.lookup_eq_none_iff.mpr hall]
          at h
        cases h
    · rw [List.lookup_cons, beq_eq_false_iff_ne.mpr hkey]
      by_cases hkeep : keeps entry.1 = true
      · rw [List.filter_cons, if_pos hkeep, List.lookup_cons,
          beq_eq_false_iff_ne.mpr hkey] at h
        exact ih h
      · rw [List.filter_cons, if_neg hkeep] at h
        exact ih h

theorem Sound.evict (h : cache.Sound check store)
    (keeps : String × String → Bool) :
    (cache.evict keeps).Sound check store :=
  fun tenant version schema hfind =>
    h tenant version schema (find?_of_evict hfind)

end SchemaCache

/-- A sound cache of programs stays sound when texts are asked for. -/
theorem ProgramCache.Sound.warm {engine : ExpressionEngine}
    {cache : ProgramCache engine} (h : cache.Sound) (texts : List String) :
    (cache.warm texts).Sound := by
  induction texts generalizing cache with
  | nil => exact h
  | cons text texts ih => exact ih (sound_getOrCompile h text)

/-- A compiled schema has the name of its version. -/
theorem StoredSchema.version_of_compile {check : ExpressionCheck}
    {tenant : String} {stored : StoredSchema} {schema : Schema}
    (h : stored.compile check tenant = .ok schema) :
    schema.version = stored.version := by
  unfold compile compileSchema at h
  split at h
  · cases h
  · split at h
    · obtain ⟨entities, -, h⟩ := Outcome.bind_eq_ok_iff.mp h
      cases h
      rfl
    · cases h

/-- What a query means is stored. -/
theorem Store.mem_of_meant {s : Store} {tenant : String}
    {version : Option String} {stored : StoredSchema}
    (h : s.meant tenant version = .ok stored) :
    stored ∈ (s.tenant tenant).schemas := by
  unfold meant at h
  split at h
  next name => exact (mem_of_readSchema h).1
  next => exact mem_of_latestSchema h

namespace Service

variable {engine : ExpressionEngine} {s : Service engine}

/-! ## Coherence -/

/-- **Whether what a service keeps ready agrees with its store.** -/
structure Coherent (s : Service engine) : Prop where
  readsBack : s.store.ReadsBack
  schemas : s.schemas.Sound engine.refusal? s.store
  programs : s.programs.Sound

/-- A new service is coherent. -/
theorem coherent_new (settings : Settings) :
    ({ settings } : Service engine).Coherent where
  readsBack tenant stored h := by
    simp [Store.tenant, Table.find?] at h
  schemas := SchemaCache.sound_empty _ _
  programs := ProgramCache.sound_empty

theorem Coherent.of_store (h : s.Coherent) {store : Store}
    (hs : s.store.KeepsVersions store) (hb : store.ReadsBack) :
    Coherent { s with store } where
  readsBack := hb
  schemas := h.schemas.of_keepsVersions hs
  programs := h.programs

/-- A store with the same versions is as good. -/
theorem Coherent.of_sameVersions (h : s.Coherent) {store : Store}
    (hs : s.store.SameVersions store) : Coherent { s with store } :=
  h.of_store hs.keepsVersions (hs.readsBack h.readsBack)

/-- Losing what is kept ready does no harm. -/
theorem Coherent.forget (h : s.Coherent) (keeps : String × String → Bool)
    (clearPrograms : Bool) : (s.forget keeps clearPrograms).Coherent where
  readsBack := h.readsBack
  schemas := h.schemas.evict keeps
  programs := by
    unfold Service.forget
    cases clearPrograms
    · exact h.programs
    · exact ProgramCache.sound_empty

/-- **What a query means is a stored version, compiled**, whatever is kept
ready. -/
theorem Coherent.resolveSchema_eq (h : s.Coherent) (timeout : Option Nat)
    (tenant : String) (version : Option String) :
    (s.resolverWithin timeout tenant).resolveSchema version = (do
      let stored ← (s.store.meant tenant version).mapError .ofStoreError
      stored.compile engine.refusal? tenant) := by
  show s.schemas.read engine.refusal? s.store tenant (versionMeant version) = _
  rw [h.schemas.read_eq h.readsBack]
  unfold Store.meant
  cases versionMeant version <;> rfl

/-- A stored version that a query means is the one that is compiled. -/
theorem Coherent.resolveSchema_of_meant (h : s.Coherent) {tenant : String}
    {version : Option String} {stored : StoredSchema}
    (hmeant : s.store.meant tenant version = .ok stored) :
    (s.resolver tenant).resolveSchema version
      = stored.compile engine.refusal? tenant := by
  unfold resolver
  rw [h.resolveSchema_eq, hmeant]
  rfl

/-- The schema that a query means is stored under its version. -/
theorem Coherent.readSchema_of_resolveSchema (h : s.Coherent)
    {timeout : Option Nat} {tenant : String} {version : Option String}
    {schema : Schema}
    (hs : (s.resolverWithin timeout tenant).resolveSchema version
      = .ok schema) :
    ∃ stored, s.store.readSchema tenant schema.version = .ok stored ∧
      stored.compile engine.refusal? tenant = .ok schema := by
  rw [h.resolveSchema_eq] at hs
  obtain ⟨stored, hstored, hcompile⟩ := Outcome.bind_eq_ok_iff.mp hs
  rw [Outcome.mapError_eq_ok_iff] at hstored
  rw [StoredSchema.version_of_compile hcompile]
  exact ⟨stored, h.readsBack tenant stored (Store.mem_of_meant hstored),
    hcompile⟩

/-- To keep something ready stores nothing. -/
theorem store_remember (tenant : String) (version : Option String) :
    (s.remember tenant version).store = s.store := by
  unfold remember
  split <;> rfl

/-- Keeping ready what a query uses is coherent. -/
theorem Coherent.remember (h : s.Coherent) (tenant : String)
    (version : Option String) : (s.remember tenant version).Coherent := by
  unfold Service.remember
  split
  · exact h
  next schema hs =>
    obtain ⟨stored, hread, hcompile⟩ := h.readSchema_of_resolveSchema hs
    refine ⟨h.readsBack, ?_, h.programs.warm _⟩
    show SchemaCache.Sound (if _ then _ else _) _ _
    split
    · exact h.schemas.insert _ hread hcompile
    · exact h.schemas

/-- **What a change keeps**: what holds of the service, and of the one that
the change ends with if it succeeds. -/
theorem change_induction {P : Service engine → Prop} (h : P s) {α : Type}
    {result : Except ServiceError (α × Service engine)} (shown : α → Answer)
    (hr : ∀ {a s'}, result = .ok (a, s') → P s') :
    P (s.change result shown).2 := by
  unfold Service.change
  split
  next a s' => exact hr rfl
  next => exact h

/-- A query is coherent. -/
theorem Coherent.answer {α : Type} (h : s.Coherent) (tenant : String)
    (version : Option String) (query : Resolver → Except Failure α)
    (shown : α → Answer) :
    (s.answer tenant version query shown).2.Coherent := by
  unfold Service.answer
  simp only
  split
  · exact h.remember tenant version
  · exact h.remember tenant version

/-! What it takes for a change to succeed, and what it comes to. -/

section Changes

variable {tenant : String} {s' : Service engine}

theorem writeSchema_eq_ok_iff {source version : String} {createdAt : Int} :
    s.writeSchema tenant source version createdAt = .ok s' ↔
      ∃ schema store, requireTenant tenant = .ok () ∧
        StoredSchema.compile engine.refusal? tenant
          ⟨version, source, createdAt⟩ = .ok schema ∧
        s.store.writeSchema tenant ⟨version, source, createdAt⟩ = .ok store ∧
        s' = { s with store } := by
  unfold Service.writeSchema
  simp only [Outcome.bind_eq_ok_iff, Outcome.mapError_eq_ok_iff,
    Outcome.pure_eq_ok_iff]
  constructor
  · rintro ⟨⟨⟩, htenant, schema, hschema, store, hstore, rfl⟩
    exact ⟨schema, store, htenant, hschema, hstore, rfl⟩
  · rintro ⟨schema, store, htenant, hschema, hstore, rfl⟩
    exact ⟨(), htenant, schema, hschema, store, hstore, rfl⟩

theorem writeRelationships_eq_ok_iff {tuples : List Tuple} :
    s.writeRelationships tenant tuples = .ok s' ↔
      ∃ schema store, s.readSchema tenant none = .ok schema ∧
        (∀ t ∈ tuples, checkRelationship schema t = .ok ()) ∧
        s.store.writeTuples tenant (tuples.map Tuple.normalize) = .ok store ∧
        s' = { s with store } := by
  unfold Service.writeRelationships
  simp only [Outcome.bind_eq_ok_iff, Outcome.mapError_eq_ok_iff,
    Outcome.pure_eq_ok_iff, ← Outcome.forM_eq_ok_iff]
  constructor
  · rintro ⟨schema, hschema, ⟨⟩, hadmitted, store, hstore, rfl⟩
    exact ⟨schema, store, hschema, hadmitted, hstore, rfl⟩
  · rintro ⟨schema, store, hschema, hadmitted, hstore, rfl⟩
    exact ⟨schema, hschema, (), hadmitted, store, hstore, rfl⟩

theorem deleteRelationships_eq_ok {filter : TupleFilter} {n : Nat}
    (hs : s.deleteRelationships tenant filter = .ok (n, s')) :
    ∃ store, s.store.deleteTuples tenant filter = .ok (n, store) ∧
      s' = { s with store } := by
  obtain ⟨-, -, hs⟩ := Outcome.bind_eq_ok_iff.mp hs
  obtain ⟨⟨removed, store⟩, hstore, hs⟩ := Outcome.bind_eq_ok_iff.mp hs
  cases hs
  exact ⟨store, Outcome.mapError_eq_ok_iff.mp hstore, rfl⟩

theorem writeAttributes_eq_ok_iff
    {attributes : List (Attribute AttributeValue)} :
    s.writeAttributes tenant attributes = .ok s' ↔
      ∃ schema store, s.readSchema tenant none = .ok schema ∧
        (∀ a ∈ attributes, checkAttribute schema a = .ok ()) ∧
        s.store.writeAttributes tenant (attributes.map Attribute.toJson)
          = .ok store ∧
        s' = { s with store } := by
  unfold Service.writeAttributes
  simp only [Outcome.bind_eq_ok_iff, Outcome.mapError_eq_ok_iff,
    Outcome.pure_eq_ok_iff, ← Outcome.forM_eq_ok_iff]
  constructor
  · rintro ⟨schema, hschema, ⟨⟩, hadmitted, store, hstore, rfl⟩
    exact ⟨schema, store, hschema, hadmitted, hstore, rfl⟩
  · rintro ⟨schema, store, hschema, hadmitted, hstore, rfl⟩
    exact ⟨schema, hschema, (), hadmitted, store, hstore, rfl⟩

theorem deleteAttributes_eq_ok {entity : EntityRef} {name : Option String}
    {n : Nat} (hs : s.deleteAttributes tenant entity name = .ok (n, s')) :
    s' = { s with
      store := (s.store.deleteAttributes tenant entity name).2 } := by
  obtain ⟨-, -, hs⟩ := Outcome.bind_eq_ok_iff.mp hs
  cases hs
  rfl

end Changes

theorem Coherent.writeSchema (h : s.Coherent)
    {tenant source version : String} {createdAt : Int} {s' : Service engine}
    (hs : s.writeSchema tenant source version createdAt = .ok s') :
    s'.Coherent := by
  obtain ⟨-, store, -, -, hstore, rfl⟩ := writeSchema_eq_ok_iff.mp hs
  exact h.of_store (Store.keepsVersions_writeSchema hstore)
    (Store.readsBack_writeSchema hstore h.readsBack)

/-! What is done to tuples and attributes leaves the versions. -/

/-- **Whether a service is another with the same versions**: they differ in
their stores alone. -/
def LeavesVersions (s s' : Service engine) : Prop :=
  ∃ store, s.store.SameVersions store ∧ s' = { s with store }

theorem leavesVersions_writeRelationships {tenant : String}
    {tuples : List Tuple} {s' : Service engine}
    (hs : s.writeRelationships tenant tuples = .ok s') :
    s.LeavesVersions s' := by
  obtain ⟨-, store, -, -, hstore, rfl⟩ := writeRelationships_eq_ok_iff.mp hs
  exact ⟨store, Store.sameVersions_writeTuples hstore, rfl⟩

theorem leavesVersions_deleteRelationships {tenant : String}
    {filter : TupleFilter} {n : Nat} {s' : Service engine}
    (hs : s.deleteRelationships tenant filter = .ok (n, s')) :
    s.LeavesVersions s' := by
  obtain ⟨store, hstore, rfl⟩ := deleteRelationships_eq_ok hs
  exact ⟨store, Store.sameVersions_deleteTuples hstore, rfl⟩

theorem leavesVersions_writeAttributes {tenant : String}
    {attributes : List (Attribute AttributeValue)} {s' : Service engine}
    (hs : s.writeAttributes tenant attributes = .ok s') :
    s.LeavesVersions s' := by
  obtain ⟨-, store, -, -, hstore, rfl⟩ := writeAttributes_eq_ok_iff.mp hs
  exact ⟨store, Store.sameVersions_writeAttributes hstore, rfl⟩

theorem leavesVersions_deleteAttributes {tenant : String}
    {entity : EntityRef} {name : Option String} {n : Nat}
    {s' : Service engine}
    (hs : s.deleteAttributes tenant entity name = .ok (n, s')) :
    s.LeavesVersions s' := by
  obtain rfl := deleteAttributes_eq_ok hs
  exact ⟨_, Store.sameVersions_deleteAttributes s.store tenant entity name, rfl⟩

theorem Coherent.of_leavesVersions (h : s.Coherent) {s' : Service engine}
    (hs : s.LeavesVersions s') : s'.Coherent := by
  obtain ⟨store, hsame, rfl⟩ := hs
  exact h.of_sameVersions hsame

/-- A change without a count ends with the service that it comes to. -/
theorem eq_ok_of_map_unit {result : Except ServiceError (Service engine)}
    {a : Unit} {s' : Service engine}
    (h : result.map ((), ·) = .ok (a, s')) : result = .ok s' := by
  obtain ⟨s'', hs, heq⟩ := Outcome.map_eq_ok_iff.mp h
  cases heq
  exact hs

/-- A change is done if it is answered so. -/
theorem eq_ok_of_change_done {result : Except ServiceError (Service engine)}
    (h : (s.change (result.map ((), ·)) fun _ => .done).1 = .done) :
    result = .ok (s.change (result.map ((), ·)) fun _ => .done).2 := by
  cases result with
  | error e => cases h
  | ok s' => rfl

/-- **Every operation keeps a service coherent.** -/
theorem Coherent.apply (h : s.Coherent) (operation : Operation) :
    (s.apply operation).2.Coherent := by
  cases operation with
  | writeSchema tenant source version createdAt =>
    exact change_induction (P := Coherent) h _ fun hs =>
      h.writeSchema (eq_ok_of_map_unit hs)
  | readSchema tenant version =>
    have h := h.remember tenant version
    simp only [Service.apply]
    cases (s.remember tenant version).readSchema tenant version with
    | ok schema => exact h
    | error e => exact h
  | schemaVersions tenant =>
    simp only [Service.apply]
    cases s.schemaVersions tenant with
    | ok names => exact h
    | error e => exact h
  | writeRelationships tenant tuples =>
    have h := h.remember tenant none
    exact change_induction (P := Coherent) h _ fun hs => h.of_leavesVersions
      (leavesVersions_writeRelationships (eq_ok_of_map_unit hs))
  | deleteRelationships tenant filter =>
    exact change_induction (P := Coherent) h _ fun hs =>
      h.of_leavesVersions (leavesVersions_deleteRelationships hs)
  | writeAttributes tenant attributes =>
    have h := h.remember tenant none
    exact change_induction (P := Coherent) h _ fun hs => h.of_leavesVersions
      (leavesVersions_writeAttributes (eq_ok_of_map_unit hs))
  | deleteAttributes tenant entity name =>
    exact change_induction (P := Coherent) h _ fun hs =>
      h.of_leavesVersions (leavesVersions_deleteAttributes hs)
  | check => exact h.answer ..
  | checkMultiple => exact h.answer ..
  | subjectPermission => exact h.answer ..
  | expand => exact h.answer ..
  | lookupEntity => exact h.answer ..
  | lookupSubject => exact h.answer ..

/-! ## Events -/

/-- **What can happen to a service.** -/
inductive Event
  | operation (operation : Operation)
  /-- Some of what is kept ready is lost. -/
  | forget (keeps : String × String → Bool) (clearPrograms : Bool)
  /-- Reads are disturbed in another way. -/
  | disturb (faults : ReadFaults)
  /-- A version is written to the store itself, which compiles nothing. -/
  | storeSchema (tenant : String) (schema : StoredSchema)
  /-- Tuples are written to the store itself, which asks no schema. -/
  | storeTuples (tenant : String) (tuples : List Tuple)
  /-- Attributes are written to the store itself. -/
  | storeAttributes (tenant : String) (attributes : List (Attribute Json))

/-- The service with another store, if there is one. -/
def withStore (s : Service engine) : Except StoreError Store → Service engine
  | .ok store => { s with store }
  | .error _ => s

/-- The service behind an event. -/
def meet (s : Service engine) : Event → Service engine
  | .operation operation => (s.apply operation).2
  | .forget keeps clearPrograms => s.forget keeps clearPrograms
  | .disturb faults => { s with faults }
  | .storeSchema tenant schema =>
    s.withStore (s.store.writeSchema tenant schema)
  | .storeTuples tenant tuples =>
    s.withStore (s.store.writeTuples tenant tuples)
  | .storeAttributes tenant attributes =>
    s.withStore (s.store.writeAttributes tenant attributes)

/-- **The service behind some events in a row.** -/
def after (s : Service engine) (events : List Event) : Service engine :=
  events.foldl meet s

/-- A write past the service keeps what holds of it and behind the write. -/
theorem withStore_induction {P : Service engine → Prop} (h : P s)
    {result : Except StoreError Store}
    (hr : ∀ {store}, result = .ok store → P { s with store }) :
    P (s.withStore result) := by
  unfold Service.withStore
  split
  next store => exact hr rfl
  next => exact h

/-- Every event keeps a service coherent. -/
theorem Coherent.meet (h : s.Coherent) (event : Event) :
    (s.meet event).Coherent := by
  cases event with
  | operation operation => exact h.apply operation
  | forget keeps clearPrograms => exact h.forget keeps clearPrograms
  | disturb faults => exact ⟨h.readsBack, h.schemas, h.programs⟩
  | storeSchema tenant schema =>
    refine withStore_induction (P := Coherent) h fun hs => h.of_store ?_ ?_
    · exact Store.keepsVersions_writeSchema hs
    · exact Store.readsBack_writeSchema hs h.readsBack
  | storeTuples tenant tuples =>
    exact withStore_induction (P := Coherent) h fun hs =>
      h.of_sameVersions (Store.sameVersions_writeTuples hs)
  | storeAttributes tenant attributes =>
    exact withStore_induction (P := Coherent) h fun hs =>
      h.of_sameVersions (Store.sameVersions_writeAttributes hs)

/-- **A coherent service stays coherent**, whatever happens to it. -/
theorem Coherent.after (h : s.Coherent) (events : List Event) :
    (s.after events).Coherent := by
  unfold Service.after
  induction events generalizing s with
  | nil => exact h
  | cons event events ih => exact ih (h.meet event)

end Service

end Entitlement
