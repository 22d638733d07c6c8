import Entitlement.Proofs.Service.Recorded
import Entitlement.Proofs.Service.Transparency

/-!
# The versions that a service has written

A version of a schema is written by an operation that answers its name, and
by nothing else that the service does: what is stored for a tenant is what
has been written for it, in the order of writing (`Service.schemas_after`).
No version is taken back or replaced, no name is given twice, and every
version that was written compiles.

The versions are listed newest first, and the newest of them is what a read
without a version means.
-/

namespace Entitlement

namespace Service

variable {engine : ExpressionEngine} {s : Service engine} {tenant : String}

/-! ## Writing a version -/

/-- **A version is written or refused.** If it is written, its schema
compiles and the store takes it; if it is refused, nothing is changed. -/
theorem apply_writeSchema_cases (s : Service engine)
    (tenant source version : String) (createdAt : Int) :
    (∃ store, isBlankText tenant = false ∧
      (∃ schema, StoredSchema.compile engine.refusal? tenant
        ⟨version, source, createdAt⟩ = .ok schema) ∧
      s.store.writeSchema tenant ⟨version, source, createdAt⟩ = .ok store ∧
      s.apply (.writeSchema tenant source version createdAt)
        = (.version version, { s with store })) ∨
    ∃ e, s.apply (.writeSchema tenant source version createdAt)
      = (.error e, s) := by
  cases hs : s.writeSchema tenant source version createdAt with
  | error e =>
    refine .inr ⟨e, ?_⟩
    simp only [Service.apply, hs]
    rfl
  | ok s' =>
    obtain ⟨schema, store, htenant, hschema, hstore, rfl⟩ :=
      writeSchema_eq_ok_iff.mp hs
    refine .inl ⟨store, not_blank_of_requireTenant htenant, ⟨schema, hschema⟩,
      hstore, ?_⟩
    simp only [Service.apply, hs]
    rfl

/-- **A write that fails changes nothing.** -/
theorem snd_apply_writeSchema_of_error {source version : String}
    {createdAt : Int} {e : ServiceError}
    (h : (s.apply (.writeSchema tenant source version createdAt)).1
      = .error e) :
    (s.apply (.writeSchema tenant source version createdAt)).2 = s := by
  rcases s.apply_writeSchema_cases tenant source version createdAt with
    ⟨store, -, -, -, happly⟩ | ⟨e', happly⟩
  · rw [happly] at h
    cases h
  · rw [happly]

/-! ## All that is written -/

/-- Whether an event is one of the service itself, which writes to its store
only by its operations. -/
def Event.isOwn : Event → Bool
  | operation _ | forget .. | disturb _ => true
  | storeSchema .. | storeTuples .. | storeAttributes .. => false

/-- The version that is written for a tenant at an event, if one is: the
service answers its name. -/
def written? (s : Service engine) (tenant : String) :
    Event → Option StoredSchema
  | .operation (.writeSchema owner source version createdAt) =>
    match (s.apply (.writeSchema owner source version createdAt)).1 with
    | .version name =>
      if owner = tenant then some ⟨name, source, createdAt⟩ else none
    | _ => none
  | _ => none

/-- **The versions that are written for a tenant** while events happen. -/
def written (s : Service engine) (tenant : String) :
    List Event → List StoredSchema
  | [] => []
  | event :: rest =>
    (s.written? tenant event).toList ++ (s.meet event).written tenant rest

end Service

/-- Whether an operation writes a version. -/
def Operation.writesSchema : Operation → Bool
  | writeSchema .. => true
  | _ => false

namespace Store

theorem SameVersions.refl (s : Store) : s.SameVersions s :=
  fun _ => rfl

theorem SameVersions.trans {s s' s'' : Store} (h : s.SameVersions s')
    (h' : s'.SameVersions s'') : s.SameVersions s'' :=
  fun tenant => (h' tenant).trans (h tenant)

/-- A version that is written has a name. -/
theorem version_ne_empty {s s' : Store} {tenant : String}
    {schema : StoredSchema} (h : s.writeSchema tenant schema = .ok s') :
    schema.version ≠ "" := by
  obtain ⟨-, -, h⟩ := Outcome.bind_eq_ok_iff.mp h
  obtain ⟨⟨⟩, hname, -⟩ := Outcome.bind_eq_ok_iff.mp h
  intro hempty
  rw [hempty] at hname
  cases hname

end Store

namespace Service

variable {engine : ExpressionEngine} {s : Service engine} {tenant : String}

/-- To keep something ready changes no version. -/
theorem sameVersions_remember (tenant : String) (version : Option String) :
    s.store.SameVersions (s.remember tenant version).store := by
  rw [store_remember]
  exact .refl s.store

theorem sameVersions_answer {α : Type} (tenant : String)
    (version : Option String) (query : Resolver → Except Failure α)
    (shown : α → Answer) :
    s.store.SameVersions (s.answer tenant version query shown).2.store := by
  unfold answer
  simp only
  split <;> exact sameVersions_remember tenant version

theorem sameVersions_change {α : Type} (s : Service engine)
    {result : Except ServiceError (α × Service engine)} (shown : α → Answer)
    (hr : ∀ {a s'}, result = .ok (a, s') → s.LeavesVersions s') :
    s.store.SameVersions (s.change result shown).2.store := by
  refine change_induction (P := fun s' => s.store.SameVersions s'.store)
    (.refl s.store) shown fun hs => ?_
  obtain ⟨store, hsame, rfl⟩ := hr hs
  exact hsame

/-- **Only a write of a schema changes the versions.** -/
theorem sameVersions_apply {operation : Operation}
    (h : operation.writesSchema = false) :
    s.store.SameVersions (s.apply operation).2.store := by
  cases operation with
  | writeSchema => cases h
  | readSchema tenant version =>
    simp only [Service.apply]
    split <;> exact sameVersions_remember tenant version
  | schemaVersions tenant =>
    simp only [Service.apply]
    split <;> exact .refl s.store
  | writeRelationships tenant tuples =>
    exact (sameVersions_remember tenant none).trans
      (sameVersions_change (s.remember tenant none) _ fun hs =>
        leavesVersions_writeRelationships (eq_ok_of_map_unit hs))
  | deleteRelationships tenant filter =>
    exact sameVersions_change s _ leavesVersions_deleteRelationships
  | writeAttributes tenant attributes =>
    exact (sameVersions_remember tenant none).trans
      (sameVersions_change (s.remember tenant none) _ fun hs =>
        leavesVersions_writeAttributes (eq_ok_of_map_unit hs))
  | deleteAttributes tenant entity name =>
    exact sameVersions_change s _ leavesVersions_deleteAttributes
  | check => exact sameVersions_answer _ _ _ _
  | checkMultiple => exact sameVersions_answer _ _ _ _
  | subjectPermission => exact sameVersions_answer _ _ _ _
  | expand => exact sameVersions_answer _ _ _ _
  | lookupEntity => exact sameVersions_answer _ _ _ _
  | lookupSubject => exact sameVersions_answer _ _ _ _

/-- What is written at a write of a schema is stored behind the versions that
were stored before. -/
theorem schemas_apply_writeSchema (s : Service engine)
    (tenant owner source version : String) (createdAt : Int) :
    ((s.apply (.writeSchema owner source version createdAt)).2.store.tenant
        tenant).schemas
      = (s.store.tenant tenant).schemas ++ (s.written? tenant
          (.operation (.writeSchema owner source version createdAt))).toList := by
  unfold written?
  rcases s.apply_writeSchema_cases owner source version createdAt with
    ⟨store, -, -, hstore, happly⟩ | ⟨e, happly⟩
  · obtain ⟨-, rfl⟩ := Store.writeSchema_eq_ok hstore
    simp only [happly]
    by_cases howner : owner = tenant
    · subst howner
      rw [if_pos rfl, Store.tenant_setTenant_self]
      rfl
    · rw [if_neg howner, Store.tenant_setTenant_of_ne _ _ (Ne.symm howner)]
      exact (List.append_nil _).symm
  · simp only [happly]
    exact (List.append_nil _).symm

/-- **An event adds the version that is written at it.** -/
theorem schemas_meet (s : Service engine) (tenant : String) {event : Event}
    (h : event.isOwn = true) :
    ((s.meet event).store.tenant tenant).schemas
      = (s.store.tenant tenant).schemas
          ++ (s.written? tenant event).toList := by
  cases event with
  | operation operation =>
    cases hwrites : operation.writesSchema with
    | true =>
      cases operation with
      | writeSchema owner source version createdAt =>
        exact s.schemas_apply_writeSchema tenant owner source version createdAt
      | _ => cases hwrites
    | false =>
      have hnone : s.written? tenant (.operation operation) = none := by
        cases operation with
        | writeSchema => cases hwrites
        | _ => rfl
      rw [hnone]
      exact (sameVersions_apply hwrites tenant).trans (List.append_nil _).symm
  | forget | disturb => exact (List.append_nil _).symm
  | storeSchema | storeTuples | storeAttributes => cases h

/-- **What is stored is what has been written**, in the order of writing. -/
theorem schemas_after (s : Service engine) (tenant : String)
    {events : List Event} (h : ∀ event ∈ events, event.isOwn = true) :
    ((s.after events).store.tenant tenant).schemas
      = (s.store.tenant tenant).schemas ++ s.written tenant events := by
  induction events generalizing s with
  | nil => exact (List.append_nil _).symm
  | cons event events ih =>
    rw [List.forall_mem_cons] at h
    show (((s.meet event).after events).store.tenant tenant).schemas = _
    rw [ih (s.meet event) h.2, schemas_meet s tenant h.1, List.append_assoc]
    rfl

/-- **What has been written compiles**, and is not written for a blank
tenant. -/
theorem compile_of_mem_written {events : List Event} {stored : StoredSchema}
    (h : stored ∈ s.written tenant events) :
    isBlankText tenant = false ∧
      ∃ schema, stored.compile engine.refusal? tenant = .ok schema := by
  induction events generalizing s with
  | nil => cases h
  | cons event events ih =>
    rcases List.mem_append.mp h with h | h
    · rw [Option.mem_toList] at h
      unfold written? at h
      split at h
      next owner source version createdAt _ =>
        rcases s.apply_writeSchema_cases owner source version createdAt with
          ⟨store, hblank, hcompile, -, happly⟩ | ⟨e, happly⟩
        · simp only [happly] at h
          split at h
          next howner =>
            cases h
            exact howner ▸ ⟨hblank, hcompile⟩
          next => cases h
        · simp only [happly] at h
          cases h
      next => cases h
    · exact ih h

/-- For a blank tenant nothing is written. -/
theorem written_of_blank (h : isBlankText tenant = true)
    {events : List Event} : s.written tenant events = [] := by
  rw [List.eq_nil_iff_forall_not_mem]
  intro stored hstored
  rw [(compile_of_mem_written hstored).1] at h
  cases h

/-! ## Distinct names -/

/-- **Whether no two versions of a tenant have one name.** -/
def HasDistinctVersions (s : Service engine) : Prop :=
  ∀ tenant, ((s.store.tenant tenant).schemas.map StoredSchema.version).Nodup

/-- So it is with every service, as with its ledger. -/
theorem hasDistinctVersions_after (settings : Settings)
    (events : List Event) :
    (({ settings } : Service engine).after events).HasDistinctVersions := by
  intro tenant
  obtain ⟨l, hl⟩ : (({ settings } : Service engine).after
      events).store.KeepsLedger := keepsLedger_after settings events
  rw [(hl tenant).versions]
  exact (l tenant).distinct

end Service

end Entitlement
