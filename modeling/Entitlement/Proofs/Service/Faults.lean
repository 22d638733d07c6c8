import Entitlement.Proofs.Access.Bulk
import Entitlement.Proofs.Access.Comparison
import Entitlement.Proofs.Service.Listing

/-!
# Failures decide nothing

A read that fails, or an expression that has no truth value, may cost a
query its answer but never changes it. If a resolver knows less than
another one, because some of what the other reads it fails to read, then
whatever it answers to a check, the other one answers too. Otherwise a
failure would have been taken for a denial on the way, and under a negation
for a grant.

A check of many permissions does take a failure for a denial, in the end
and for this permission alone. So of its answers only those are kept that
a permission is held.

A service whose reads are disturbed answers from such a resolver, and the
same service without its faults from the other one.
-/

namespace Entitlement

/-! ## Resolvers that know less -/

/-- **Whether a resolver knows no more than another one**: what it reads
and what it takes expressions for is the same there, unless it fails to. -/
structure Resolver.Approximates (r r' : Resolver) : Prop where
  maxDepth : r'.maxDepth = r.maxDepth
  schema : ∀ {version schema}, r.schema version = .ok schema →
    r'.schema version = .ok schema
  tuples : ∀ {filter tuples}, r.tuples filter = .ok tuples →
    r'.tuples filter = .ok tuples
  attributes : ∀ {e attributes}, r.attributes e = .ok attributes →
    r'.attributes e = .ok attributes
  holds : ∀ {text context b}, r.holds text context = .ok b →
    r'.holds text context = .ok b

/-- Wherever a failure is met, it excuses that there is no answer. -/
theorem Failure.isExcuse_true : IsExcuse fun _ => True :=
  fun _ _ _ => id

/-- The evaluation with another resolver. -/
def Evaluation.withResolver (q : Evaluation) (r : Resolver) : Evaluation :=
  { q with resolver := r }

/-- Whether what is allowed in a table is allowed in another one. -/
def Table.AllowedIn (table table' : Table Bool) : Prop :=
  ∀ name, table.find? name = some true → table'.find? name = some true

namespace Resolver.Approximates

variable {r r' : Resolver} {schema : Schema}

theorem settles_tuplesOn (h : r.Approximates r') (q : Evaluation)
    (e : EntityRef) (relation : String) :
    Outcome.Settles (fun _ => True) ((q.withResolver r).tuplesOn e relation)
      ((q.withResolver r').tuplesOn e relation) :=
  Outcome.Settles.bind (.of_ok fun _ => h.tuples) fun _ _ => .refl _

theorem settles_holdsDirectly (h : r.Approximates r') (q : Evaluation)
    (e : EntityRef) (relation : String) :
    Outcome.Settles (fun _ => True)
      ((q.withResolver r).holdsDirectly e relation)
      ((q.withResolver r').holdsDirectly e relation) := by
  -- the tuples of the query are asked first, and by both in the same way
  show Outcome.Settles _
    (if q.contextual.any (q.isGrant e relation) then _ else _)
    (if q.contextual.any (q.isGrant e relation) then _ else _)
  split
  · exact .refl _
  · exact Outcome.Settles.bind (.of_ok fun _ => h.tuples) fun _ _ => .refl _

/-- **An evaluation over less settles that over more.** -/
theorem settles (h : r.Approximates r') (q : Evaluation) :
    (q.withResolver r).Settles (fun _ => True) (fun _ _ => True)
      (q.withResolver r') where
  schema := rfl
  direct := h.settles_holdsDirectly q
  userset e relation := by
    refine (h.settles_tuplesOn q e relation).bind fun tuples _ => ?_
    refine Outcome.Settles.anyM fun t _ => ?_
    unfold Evaluation.holdsUserset
    cases t.subjectRelation with
    | none => exact .refl _
    | some member => exact h.settles_holdsDirectly q t.subjectEntity member
  parents e relation _ :=
    (h.settles_tuplesOn q e relation.name).bind fun _ _ => .refl _
  satisfies e rule expression := by
    refine Outcome.Settles.bind (.of_ok fun _ => h.attributes) fun _ _ => ?_
    refine Outcome.Settles.bind (.of_ok fun _ => h.attributes) fun _ _ => ?_
    exact Outcome.Settles.mapError (.of_ok fun _ => h.holds) fun _ => id

/-- An answer to a rule stays. -/
theorem evaluateAt_eq_ok (h : r.Approximates r') (q : Evaluation)
    {depth : UInt32} {e : EntityRef} {rule : PermissionRule} {b : Bool}
    (hb : (q.withResolver r).evaluateAt depth e rule = .ok b) :
    (q.withResolver r').evaluateAt depth e rule = .ok b :=
  ((h.settles q).evaluateAt @Failure.isExcuse_true (fun _ _ _ => trivial)
    h.maxDepth depth fun _ _ => trivial).eq_ok hb

theorem resolveSchema_eq_ok (h : r.Approximates r') {version : Option String}
    (hs : r.resolveSchema version = .ok schema) :
    r'.resolveSchema version = .ok schema :=
  h.schema hs

theorem checkInSchema_eq_ok (h : r.Approximates r') {request : CheckRequest}
    {b : Bool} (hb : r.checkInSchema schema request = .ok b) :
    r'.checkInSchema schema request = .ok b :=
  (settles_checkInSchema (h.settles (r.evaluation schema request))
    @Failure.isExcuse_true (fun _ _ _ => trivial) h.maxDepth rfl rfl).eq_ok hb

/-- **An answer to a check stays.** -/
theorem check_eq_ok (h : r.Approximates r') {request : CheckRequest}
    {b : Bool} (hb : r.check request = .ok b) : r'.check request = .ok b := by
  obtain ⟨_, hv, hb⟩ := Outcome.bind_eq_ok_iff.mp hb
  obtain ⟨schema, hs, hb⟩ := Outcome.bind_eq_ok_iff.mp hb
  rw [check_of_schema hv (h.resolveSchema_eq_ok hs)]
  exact h.checkInSchema_eq_ok hb

/-! ### Many permissions at once -/

/-- A permission that is held stays so. -/
theorem holdsOne (h : r.Approximates r') {request : CheckRequest}
    (hheld : r.holdsOne schema request = true) :
    r'.holdsOne schema request = true := by
  obtain ⟨hv, hb⟩ := holdsOne_eq_true_iff.mp hheld
  exact holdsOne_eq_true_iff.mpr ⟨hv, h.checkInSchema_eq_ok hb⟩

theorem exists_checkEach (h : r.Approximates r') (hr : r'.InTime)
    {request : String → CheckRequest} {permissions : List String}
    {table : Table Bool}
    (ht : r.checkEach schema request permissions = .ok table) :
    ∃ table', r'.checkEach schema request permissions = .ok table' ∧
      table.AllowedIn table' := by
  obtain ⟨table', ht'⟩ :=
    Resolver.exists_checkEach hr schema request permissions
  refine ⟨table', ht', fun name hname => ?_⟩
  rw [find?_of_checkEach ht] at hname
  rw [find?_of_checkEach ht']
  split at hname
  next hmem => rw [if_pos hmem, h.holdsOne (Option.some.inj hname)]
  next => cases hname

/-- **Permissions that are held stay so** where no read takes too long. -/
theorem exists_checkMultiple (h : r.Approximates r') (hr : r'.InTime)
    {request : CheckRequest} {permissions : List String} {table : Table Bool}
    (ht : r.checkMultiple request permissions = .ok table) :
    ∃ table', r'.checkMultiple request permissions = .ok table' ∧
      table.AllowedIn table' := by
  obtain ⟨schema, hs, ht⟩ := checkMultiple_eq_ok_iff.mp ht
  obtain ⟨table', ht', hallowed⟩ := h.exists_checkEach hr ht
  exact ⟨table', checkMultiple_eq_ok_iff.mpr
    ⟨schema, h.resolveSchema_eq_ok hs, ht'⟩, hallowed⟩

theorem exists_subjectPermission (h : r.Approximates r') (hr : r'.InTime)
    {request : SubjectPermissionRequest} {table : Table Bool}
    (ht : r.subjectPermission request = .ok table) :
    ∃ table', r'.subjectPermission request = .ok table' ∧
      table.AllowedIn table' := by
  obtain ⟨hv, schema, hs, entity, he, ht⟩ := subjectPermission_eq_ok_iff.mp ht
  obtain ⟨table', ht', hallowed⟩ := h.exists_checkEach hr ht
  exact ⟨table', subjectPermission_eq_ok_iff.mpr
    ⟨hv, schema, h.resolveSchema_eq_ok hs, entity, he, ht'⟩, hallowed⟩

end Resolver.Approximates

/-! ## Services with faults -/

namespace Service

variable {engine : ExpressionEngine}

/-- The service with its reads disturbed in another way. -/
def withFaults (s : Service engine) (faults : ReadFaults) : Service engine :=
  { s with faults }

/-- **A service answers from less than it does without its faults.** -/
theorem approximates_resolver (s : Service engine) (tenant : String) :
    (s.resolver tenant).Approximates
      ((s.withFaults {}).resolver tenant) where
  maxDepth := rfl
  schema := id
  tuples h := by
    rw [tuples_resolver] at h ⊢
    rw [← Store.readTuples_of_queryTuples h]
    exact Store.queryTuples_of_no_faults
  attributes h := by
    rw [attributes_resolver] at h ⊢
    exact congrArg Except.ok (eq_of_unlessFaulty h)
  holds := id

/-- Faults are no matter of what is kept ready. -/
theorem remember_withFaults (s : Service engine) (faults : ReadFaults)
    (tenant : String) (version : Option String) :
    (s.withFaults faults).remember tenant version
      = (s.remember tenant version).withFaults faults := by
  have hresolve : ((s.withFaults faults).resolver tenant).resolveSchema version
      = (s.resolver tenant).resolveSchema version := rfl
  unfold remember
  rw [hresolve]
  split <;> rfl

/-- **What an answer of a resolver becomes where it knows more**, an answer
of a service becomes without its faults. -/
theorem exists_answer_withFaults {α : Type} {s : Service engine}
    {tenant : String} {version : Option String}
    {query : Resolver → Except Failure α} {shown : α → Answer}
    (hinj : ∀ a b, shown a = shown b → a = b)
    (hshown : ∀ a e, shown a ≠ .error e) {becomes : α → α → Prop}
    (hquery : ∀ {r r' : Resolver}, r.Approximates r' → r'.InTime →
      ∀ {a}, query r = .ok a → ∃ a', query r' = .ok a' ∧ becomes a a')
    {a : α} (h : (s.answer tenant version query shown).1 = shown a) :
    ∃ a', ((s.withFaults {}).answer tenant version query shown).1 = shown a' ∧
      becomes a a' := by
  rw [fst_answer, showQuery_eq_iff hinj hshown] at h
  obtain ⟨a', ha', hbecomes⟩ := hquery (approximates_resolver _ tenant)
    (inTime_resolver rfl tenant) h
  refine ⟨a', ?_, hbecomes⟩
  rwa [fst_answer, showQuery_eq_iff hinj hshown, remember_withFaults]

/-- The resolver of a document when no tuple can be read. -/
def unreadableResolver : Resolver :=
  { Resolver.documentResolver with
    tuples := fun _ => .error (.ofStoreError (.unreadable "down")) }

/-- Whether someone views the document, who says to own it. -/
def ownerRequest : CheckRequest where
  tenant := "t"
  entity := ⟨"document", "d"⟩
  permission := "view"
  subject := ⟨"user", "u"⟩
  contextual := [⟨"document", "d", "owner", "user", "u", none⟩]

/-- A service with a schema and no tuple that can be read. -/
def unreadableService : Service Condition.engine :=
  ({} : Service _).after [.storeSchema "t" ⟨"v", ownedSource, 0⟩,
    .disturb { tuples := some "down" }]

end Service

end Entitlement
