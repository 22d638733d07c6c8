import Entitlement.Proofs.Service.History
import Entitlement.Proofs.Store.Refinement

/-!
# A service keeps a ledger

Whatever a service is asked, it asks its store for at most one change, and so
does whoever writes to the store past the service (`Service.isNextOf_meet`).
So what holds of a store and is left as it is by every request holds in every
state that a service comes to (`Service.after_keeps`). A store is a ledger to
those who ask it, and thus there is always a ledger that the store of a
service keeps (`Service.keepsLedger_after`).
-/

namespace Entitlement

/-- **Whether a store comes of another by one request**, or is the same. -/
def Store.IsNextOf (s' s : Store) : Prop :=
  s' = s ∨ ∃ request reply, s.perform request = .ok (reply, s')

namespace Service

variable {engine : ExpressionEngine} {s : Service engine}

/-! ## One request at a time -/

theorem isNextOf_remember (tenant : String) (version : Option String) :
    (s.remember tenant version).store.IsNextOf s.store :=
  .inl (store_remember tenant version)

theorem isNextOf_answer {α : Type} (tenant : String)
    (version : Option String) (query : Resolver → Except Failure α)
    (shown : α → Answer) :
    (s.answer tenant version query shown).2.store.IsNextOf s.store := by
  unfold Service.answer
  simp only
  split <;> exact isNextOf_remember tenant version

/-- **An operation asks the store for at most one thing.** -/
theorem isNextOf_apply (s : Service engine) (operation : Operation) :
    (s.apply operation).2.store.IsNextOf s.store := by
  cases operation with
  | writeSchema tenant source version createdAt =>
    refine change_induction (P := (·.store.IsNextOf s.store)) (.inl rfl) _ ?_
    intro _ s' hs
    obtain ⟨_, store, -, -, hstore, rfl⟩ :=
      writeSchema_eq_ok_iff.mp (eq_ok_of_map_unit hs)
    exact .inr ⟨(tenant, .writeSchema ⟨version, source, createdAt⟩), .done,
      Outcome.bind_eq_ok_iff.mpr ⟨store, hstore, rfl⟩⟩
  | readSchema tenant version =>
    simp only [Service.apply]
    split <;> exact isNextOf_remember tenant version
  | schemaVersions tenant =>
    simp only [Service.apply]
    split <;> exact .inl rfl
  | writeRelationships tenant tuples =>
    refine change_induction (P := (·.store.IsNextOf s.store))
      (isNextOf_remember tenant none) _ ?_
    intro _ s' hs
    obtain ⟨_, store, -, -, hstore, rfl⟩ :=
      writeRelationships_eq_ok_iff.mp (eq_ok_of_map_unit hs)
    rw [store_remember] at hstore
    exact .inr ⟨(tenant, .writeTuples (tuples.map Tuple.normalize)), .done,
      Outcome.bind_eq_ok_iff.mpr ⟨store, hstore, rfl⟩⟩
  | deleteRelationships tenant filter =>
    refine change_induction (P := (·.store.IsNextOf s.store)) (.inl rfl) _ ?_
    intro n s' hs
    obtain ⟨store, hstore, rfl⟩ := deleteRelationships_eq_ok hs
    exact .inr ⟨(tenant, .deleteTuples filter), .removed n,
      Outcome.bind_eq_ok_iff.mpr ⟨(n, store), hstore, rfl⟩⟩
  | writeAttributes tenant attributes =>
    refine change_induction (P := (·.store.IsNextOf s.store))
      (isNextOf_remember tenant none) _ ?_
    intro _ s' hs
    obtain ⟨_, store, -, -, hstore, rfl⟩ :=
      writeAttributes_eq_ok_iff.mp (eq_ok_of_map_unit hs)
    rw [store_remember] at hstore
    exact .inr ⟨(tenant, .writeAttributes (attributes.map Attribute.toJson)),
      .done, Outcome.bind_eq_ok_iff.mpr ⟨store, hstore, rfl⟩⟩
  | deleteAttributes tenant entity name =>
    refine change_induction (P := (·.store.IsNextOf s.store)) (.inl rfl) _ ?_
    intro n s' hs
    obtain rfl := deleteAttributes_eq_ok hs
    exact .inr ⟨(tenant, .deleteAttributes entity name), _, rfl⟩
  | check => exact isNextOf_answer _ _ _ _
  | checkMultiple => exact isNextOf_answer _ _ _ _
  | subjectPermission => exact isNextOf_answer _ _ _ _
  | expand => exact isNextOf_answer _ _ _ _
  | lookupEntity => exact isNextOf_answer _ _ _ _
  | lookupSubject => exact isNextOf_answer _ _ _ _

/-- **So does every other event.** -/
theorem isNextOf_meet (s : Service engine) (event : Event) :
    (s.meet event).store.IsNextOf s.store := by
  cases event with
  | operation operation => exact s.isNextOf_apply operation
  | forget | disturb => exact .inl rfl
  | storeSchema tenant schema =>
    refine withStore_induction (P := (·.store.IsNextOf s.store)) (.inl rfl) ?_
    intro store hstore
    exact .inr ⟨(tenant, .writeSchema schema), .done,
      Outcome.bind_eq_ok_iff.mpr ⟨store, hstore, rfl⟩⟩
  | storeTuples tenant tuples =>
    refine withStore_induction (P := (·.store.IsNextOf s.store)) (.inl rfl) ?_
    intro store hstore
    exact .inr ⟨(tenant, .writeTuples tuples), .done,
      Outcome.bind_eq_ok_iff.mpr ⟨store, hstore, rfl⟩⟩
  | storeAttributes tenant attributes =>
    refine withStore_induction (P := (·.store.IsNextOf s.store)) (.inl rfl) ?_
    intro store hstore
    exact .inr ⟨(tenant, .writeAttributes attributes), .done,
      Outcome.bind_eq_ok_iff.mpr ⟨store, hstore, rfl⟩⟩

/-- **What every request leaves as it is, every event does**, however many
there are. -/
theorem after_keeps {P : Store → Prop}
    (hperform : ∀ {s s' : Store} {request reply}, P s →
      s.perform request = .ok (reply, s') → P s')
    (h : P s.store) (events : List Event) : P (s.after events).store := by
  induction events generalizing s with
  | nil => exact h
  | cons event events ih =>
    refine ih ?_
    rcases s.isNextOf_meet event with hsame | ⟨request, reply, hnext⟩
    · exact hsame ▸ h
    · exact hperform h hnext

end Service

/-! ## Ledgers -/

/-- **Whether there is a ledger that a store keeps.** -/
def Store.KeepsLedger (s : Store) : Prop :=
  ∃ l : Ledger, l.IsKeptIn s

theorem Store.KeepsLedger.perform {s s' : Store} {request : String × Request}
    {reply : Reply} (h : s.KeepsLedger)
    (hs : s.perform request = .ok (reply, s')) : s'.KeepsLedger := by
  obtain ⟨l, hl⟩ := h
  have hrelated := related_perform hl request
  rw [hs] at hrelated
  generalize l.perform request = recorded at hrelated
  cases hrelated with
  | ok hkept => exact ⟨_, hkept.2⟩

/-- **A service keeps a ledger in every state** that it can come to. -/
theorem Service.keepsLedger_after {engine : ExpressionEngine}
    (settings : Settings) (events : List Event) :
    (({ settings } : Service engine).after events).store.KeepsLedger :=
  after_keeps Store.KeepsLedger.perform ⟨_, Store.isKeptIn_new⟩ events

end Entitlement
