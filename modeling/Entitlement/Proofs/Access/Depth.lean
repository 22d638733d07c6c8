import Entitlement.Proofs.Access.Descent
import Entitlement.Proofs.Access.Failures
import Entitlement.Proofs.Access.World
import Entitlement.Proofs.Schema.Acyclic
import Mathlib.Data.List.Chain
import Mathlib.Data.List.Nodup

/-!
# How deep an evaluation goes

An evaluation goes one level deeper with every permission it turns to, and
it turns to another one in two ways. A bare name leads to a permission of
the same entity. In an acyclic schema no permission comes back in this way,
so on one entity there are no more levels than permissions
(`EntityType.IsTrail`). `relation.permission` leads to a parent, along a
tuple, and there the levels are counted anew. So if no way along tuples is
longer than `n`, then no more than `n + 1` entities follow each other, and
the levels are at most `n + 1` times the largest number of permissions that
an entity type has.

With as many levels the depth guard never fires. What an evaluation keeps
on its way down is that the levels that are left, together with the trail
on the present entity, are enough for all that may follow
(`Evaluation.not_isTooDeep_of_evaluate`).
-/

namespace Entitlement

/-! ## Permissions of one entity -/

/-- **A way along permissions of one entity type**, by bare names: `trail`
holds the names that were passed, with the one it has come to in front. -/
structure EntityType.IsTrail (entity : EntityType) (name : String)
    (trail : List String) : Prop where
  mem : name ∈ trail
  nodup : trail.Nodup
  declared : ∀ passed ∈ trail, (entity.permission? passed).isSome
  refers : ∀ passed ∈ trail, Relation.ReflTransGen entity.Refers passed name

namespace EntityType.IsTrail

variable {entity : EntityType} {name next : String} {trail : List String}

/-- A way begins at any permission. -/
theorem single (h : (entity.permission? name).isSome) :
    entity.IsTrail name [name] where
  mem := List.mem_singleton_self name
  nodup := List.nodup_singleton name
  declared passed hp := by rwa [List.mem_singleton.mp hp]
  refers passed hp := by rw [List.mem_singleton.mp hp]

/-- A way that goes on comes to a permission that was not passed before. -/
theorem cons (h : entity.IsTrail name trail)
    (hacyclic : ∀ name, ¬ Relation.TransGen entity.Refers name name)
    (hnext : entity.Refers name next) :
    entity.IsTrail next (next :: trail) where
  mem := List.mem_cons_self
  nodup := List.nodup_cons.mpr
    ⟨fun hp => hacyclic next (.tail' (h.refers next hp) hnext), h.nodup⟩
  declared := by
    obtain ⟨_, -, -, hdeclared⟩ := hnext
    exact List.forall_mem_cons.mpr ⟨hdeclared, h.declared⟩
  refers := List.forall_mem_cons.mpr
    ⟨.refl, fun passed hp => (h.refers passed hp).tail hnext⟩

/-- **A way is no longer than there are permissions.** -/
theorem length_le (h : entity.IsTrail name trail) :
    trail.length ≤ entity.permissions.length := by
  have hsubset : trail ⊆ entity.permissions.map Permission.name := by
    intro passed hp
    obtain ⟨p, hfound⟩ := Option.isSome_iff_exists.mp (h.declared passed hp)
    have hname : p.name = passed := by simpa using List.find?_some hfound
    rw [← hname]
    exact List.mem_map_of_mem (List.mem_of_find?_eq_some hfound)
  have hle := (h.nodup.subperm hsubset).length_le
  rwa [List.length_map] at hle

end EntityType.IsTrail

/-- **The largest number of permissions** of an entity type. -/
def Schema.mostPermissions (s : Schema) : Nat :=
  (s.entities.map fun entity => entity.permissions.length).max?.getD 0

/-- So a way is no longer than the largest number of them. -/
theorem EntityType.IsTrail.length_le_most {s : Schema} {entity : EntityType}
    {name : String} {trail : List String} (h : entity.IsTrail name trail)
    (he : entity ∈ s.entities) : trail.length ≤ s.mostPermissions :=
  Nat.le_trans h.length_le
    (List.le_max?_getD_of_mem (List.mem_map_of_mem he))

/-! ## Entities behind each other -/

/-- **Whether tuples lead from an entity to another**: one that is about
the first names the second itself. -/
def Leads (tuples : List Tuple) (e next : EntityRef) : Prop :=
  ∃ t ∈ tuples, t.isUserset = false ∧ t.entity = e ∧ t.subjectEntity = next

/-- **Whether tuples are shallow behind an entity**: they lead from it to
no cycle, and no way that passes every entity once is longer than `n`. -/
structure IsShallow (tuples : List Tuple) (e : EntityRef) (n : Nat) :
    Prop where
  acyclic : ∀ other, Relation.ReflTransGen (Leads tuples) e other →
    ¬ Relation.TransGen (Leads tuples) other other
  length_le : ∀ way, (e :: way).IsChain (Leads tuples) → (e :: way).Nodup →
    way.length ≤ n

/-- **Behind the next entity tuples are shallower.** -/
theorem IsShallow.exists_of_leads {tuples : List Tuple} {e next : EntityRef}
    {n : Nat} (h : IsShallow tuples e n) (hnext : Leads tuples e next) :
    ∃ m, n = m + 1 ∧ IsShallow tuples next m := by
  have hlonger : ∀ way, (next :: way).IsChain (Leads tuples) →
      (next :: way).Nodup → way.length + 1 ≤ n := by
    intro way hway hnodup
    refine h.length_le (next :: way) (hway.cons_cons hnext)
      (List.nodup_cons.mpr ⟨fun hback => ?_, hnodup⟩)
    -- a way back to the entity would close a cycle
    have hreach := hway.induction
      (Relation.ReflTransGen (Leads tuples) next) (next :: way)
      (fun _ _ hstep hr => hr.tail hstep) (fun _ => .refl) e hback
    exact h.acyclic e .refl (.head' hnext hreach)
  obtain ⟨m, rfl⟩ := Nat.exists_eq_add_one_of_ne_zero
    (Nat.ne_of_gt (hlonger [] (List.isChain_singleton next)
      (List.nodup_singleton next)))
  exact ⟨m, rfl, fun other hr => h.acyclic other (hr.head hnext),
    fun way hway hnodup => Nat.le_of_succ_le_succ (hlonger way hway hnodup)⟩

/-- **Tuples that lead downwards are shallow**, as far as there is room
below. -/
theorem isShallow_of_rank {tuples : List Tuple} {rank : EntityRef → Nat}
    (h : ∀ t ∈ tuples, t.isUserset = false →
      rank t.subjectEntity < rank t.entity) (e : EntityRef) :
    IsShallow tuples e (rank e) := by
  have hdown : ∀ {e next}, Leads tuples e next → rank next < rank e := by
    rintro _ _ ⟨t, ht, hu, rfl, rfl⟩
    exact h t ht hu
  have hfar : ∀ {e other}, Relation.TransGen (Leads tuples) e other →
      rank other < rank e := by
    intro e other hr
    induction hr with
    | single hstep => exact hdown hstep
    | tail _ hstep ih => exact Nat.lt_trans (hdown hstep) ih
  refine ⟨fun other _ hcycle => Nat.lt_irrefl _ (hfar hcycle), ?_⟩
  rintro way hway -
  induction way generalizing e with
  | nil => exact Nat.zero_le _
  | cons next way ih =>
    obtain ⟨hstep, hway⟩ := List.isChain_cons_cons.mp hway
    exact Nat.succ_le_of_lt (Nat.lt_of_le_of_lt (ih next hway) (hdown hstep))

/-- Parents are entities that tuples lead to. -/
theorem Evaluation.HasParent.leads {q : Evaluation} {facts : Facts}
    (hr : q.resolver.Reads facts) {e parent : EntityRef}
    (h : q.HasParent e parent) : Leads (q.world facts).tuples e parent := by
  obtain ⟨entity, relation, r, parents, he, hrel, hparents, hmem⟩ := h
  obtain ⟨_, _, -, -, t, ht, hu, hte, -, -, hp⟩ :=
    (parents_eq_ok hr he hrel hparents parent).mp hmem
  exact ⟨t, ht, hu, hte, hp⟩

/-! ## Levels -/

namespace Failure

theorem IsOfRule.not_isTooDeep {f : Failure} (h : f.IsOfRule) :
    ¬ f.IsTooDeep := by
  cases f <;> simp_all [IsOfRule, IsTooDeep, rootCause]

theorem IsOfReading.not_isTooDeep {f : Failure} (h : f.IsOfReading) :
    ¬ f.IsTooDeep := by
  rcases h with ⟨_, rfl⟩ | ⟨_, rfl⟩
  · simp [IsTooDeep, rootCause]
  · simp [IsTooDeep, rootCause]

end Failure

/-- **An evaluation with enough levels is never too deep.** It has enough
if, together with the permissions that were passed on this entity, they are
more than all permissions of this entity and of those behind it. -/
theorem Evaluation.not_isTooDeep_of_evaluate {q : Evaluation} {facts : Facts}
    (hr : q.resolver.Reads facts)
    (hf : ∀ f, q.resolver.FailsToRead f → f.IsOfReading)
    (hacyclic : q.schema.IsAcyclic) {levels : Nat} {e : EntityRef}
    {entity : EntityType} {name : String} {p : Permission}
    {trail : List String} {n : Nat}
    (he : q.schema.entity? e.type = some entity)
    (hp : entity.permission? name = some p) (ht : entity.IsTrail name trail)
    (hn : IsShallow (q.world facts).tuples e n)
    (hlevels : (n + 1) * q.schema.mostPermissions < levels + trail.length)
    {f : Failure} (h : q.evaluate levels e p.rule = .error f) :
    ¬ f.IsTooDeep := by
  induction levels generalizing e entity name p trail n f with
  | zero =>
    have htrail := ht.length_le_most (List.mem_of_find?_eq_some he)
    rw [Nat.succ_mul] at hlevels
    omega
  | succ levels ih =>
    cases failsFor_of_step h with
    | rule h => exact h.not_isTooDeep
    | read h => exact (hf f h).not_isTooDeep
    | @name next p' _ hnext hp' h =>
      -- the next permission of this entity makes the trail longer
      rw [Schema.permission?_of_entity he] at hp'
      have ht' := ht.cons (hacyclic entity (List.mem_of_find?_eq_some he))
        ⟨p, hp, hnext, Option.isSome_of_mem hp'⟩
      refine ih he hp' ht' hn ?_ h
      rw [List.length_cons]
      omega
    | @parent parent permission p' g hparent hp' hg =>
      -- a parent begins another one, with one entity less behind it
      obtain ⟨m, rfl, hm⟩ := hn.exists_of_leads (hparent.leads hr)
      obtain ⟨entity', he', hp'⟩ := Schema.permission?_eq_some_iff.mp hp'
      rw [Failure.isTooDeep_within]
      refine ih he' hp' (.single (Option.isSome_of_mem hp')) hm ?_ hg
      have htrail := ht.length_le_most (List.mem_of_find?_eq_some he)
      rw [Nat.succ_mul] at hlevels
      rw [List.length_singleton]
      omega

namespace Resolver

/-- **On shallow acyclic data the depth guard never fires.** Of a schema
that compiles, take the largest number of permissions on one entity type,
and let tuples lead from the entity of a check to no cycle and along no way
that is longer than `n`. If `n + 1` times that number of levels are allowed,
then a check of a permission that exists does not fail because of the depth,
whoever the subject is and whatever else there is to fail. -/
theorem not_isTooDeep_of_isShallow {check : ExpressionCheck}
    {tenant version source : String} {createdAt : Int} {schema : Schema}
    (hc : compileSchema check tenant version source createdAt = .ok schema)
    {r : Resolver} {facts : Facts} (hr : r.Reads facts)
    (hf : ∀ f, r.FailsToRead f → f.IsOfReading) {request : CheckRequest}
    {p : Permission} (hs : r.resolveSchema request.version = .ok schema)
    (hp : schema.permission? request.entity.type request.permission = some p)
    {n : Nat}
    (hn : IsShallow (facts.tuples ++ request.contextual) request.entity n)
    (hdepth : (n + 1) * schema.mostPermissions ≤ r.maxDepth.toNat + 1)
    {f : Failure} (h : r.check request = .error f) : ¬ f.IsTooDeep := by
  rcases Outcome.bind_eq_error_iff.mp h with hv | ⟨⟨⟩, -, h⟩
  · -- a blank field refuses the check
    unfold CheckRequest.validate requireFields at hv
    split at hv
    · cases hv
    · cases hv
      simp [Failure.IsTooDeep, Failure.rootCause]
  rcases Outcome.bind_eq_error_iff.mp h with h | ⟨schema', hs', h⟩
  · cases hs.symm.trans h
  cases hs.symm.trans hs'
  rw [checkInSchema_of_permission hp, Outcome.mapError_eq_error_iff] at h
  obtain ⟨g, hg, rfl⟩ := h
  obtain ⟨entity, he, hp⟩ := Schema.permission?_eq_some_iff.mp hp
  rw [Failure.isTooDeep_located]
  refine Evaluation.not_isTooDeep_of_evaluate
    (q := r.evaluation schema request) hr hf
    (Schema.isAcyclic_of_compileSchema hc) he hp
    (.single (Option.isSome_of_mem hp)) hn ?_ hg
  rw [List.length_singleton, levelsLeft_zero]
  exact Nat.lt_succ_of_le hdepth

/-- Folders are viewed by whoever views the folder they are in, or if they
are open. -/
def openSchema : Schema where
  tenant := "t"
  version := "v"
  source := "entity folder \x7b relation parent @folder " ++
    "permission view = parent.view or rule(open) \x7d"
  rules := []
  entities := [{
    name := "folder"
    relations := [⟨"parent", [⟨"folder", none⟩]⟩]
    permissions := [⟨"view",
      .binary .or (.member "parent" "view") (.inline "open")⟩] }]
  createdAt := 0
  updatedAt := 0

theorem compile_openSchema :
    compileSchema (fun _ => none) "t" "v" openSchema.source 0
      = .ok openSchema :=
  Outcome.eq_ok_of_toOption (by decide +kernel)

/-- One folder in another. -/
def innerFacts : Facts where
  tuples := [⟨"folder", "b", "parent", "folder", "a", none⟩]
  attributes _ := []

/-- Their resolver, with an engine that gives no expression a value. -/
def innerResolver (maxDepth : UInt32) : Resolver :=
  innerFacts.resolver openSchema maxDepth
    fun text _ => .error (.notEvaluated text)

/-- Whether someone views the inner folder. -/
def innerRequest : CheckRequest where
  tenant := "t"
  entity := ⟨"folder", "b"⟩
  permission := "view"
  subject := ⟨"user", "u"⟩

/-- Two folders with one permission need two levels. With them the check
fails for another reason, and with one less it is too deep. -/
theorem innerResolver_not_isTooDeep :
    (∃ f, (innerResolver 1).check innerRequest = .error f ∧ ¬ f.IsTooDeep) ∧
      ∃ f, (innerResolver 0).check innerRequest = .error f ∧ f.IsTooDeep := by
  have hr : (innerResolver 1).Reads innerFacts := innerFacts.reads_resolver ..
  have hf : ∀ f, (innerResolver 1).FailsToRead f → f.IsOfReading := by
    rintro f (⟨_, h⟩ | ⟨_, h⟩)
    · cases h
    · cases h
  have hn : IsShallow (innerFacts.tuples ++ innerRequest.contextual)
      innerRequest.entity 1 :=
    @isShallow_of_rank _ (fun e => if e.id = "b" then 1 else 0) (by decide) _
  constructor
  · have h : (innerResolver 1).check innerRequest = .error _ := check_eq ..
    exact ⟨_, h, not_isTooDeep_of_isShallow compile_openSchema hr hf rfl rfl hn
      (by decide) h⟩
  · exact ⟨_, check_eq .., .inl ⟨0, rfl⟩⟩

end Resolver

end Entitlement
