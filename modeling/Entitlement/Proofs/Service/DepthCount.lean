import Entitlement.Proofs.Access.Conversion
import Entitlement.Proofs.Access.Depth
import Entitlement.Proofs.Service.Missing

/-!
# Counting depths in 32 bits

Checks and expansions count the depth that they have come to in 32 bits, and
behind the greatest depth there is no next one: the count overflows. Nothing
takes an overflow for an answer, so whether there was one shows in how a run
ends.

As long as the limit is not the greatest number there is none. The first depth
beyond the limit still is a number, and there the count stops
(`Service.depth_count_stays_in_range`). The greatest number is admitted as a
limit, though. Under it no depth is beyond the limit, and a folder that is its
own parent is followed to the greatest depth and over it
(`Service.greatest_limit_counts_too_far`).
-/

namespace Entitlement

/-! ## How a run ends that is too deep -/

namespace Failure

/-- **Whether a failure has a root cause if it is one of depth.** -/
def IsDeepOnlyBy (f root : Failure) : Prop :=
  f.IsTooDeep → f.rootCause = root

variable {f root : Failure}

theorem isDeepOnlyBy_of_not (h : ¬ f.IsTooDeep) : f.IsDeepOnlyBy root :=
  fun hdeep => absurd hdeep h

theorem IsOfRule.isDeepOnlyBy (h : f.IsOfRule) : f.IsDeepOnlyBy root :=
  isDeepOnlyBy_of_not h.not_isTooDeep

theorem isDeepOnlyBy_located (type id permission : String) :
    (f.located type id permission).IsDeepOnlyBy root
      ↔ f.IsDeepOnlyBy root := by
  unfold IsDeepOnlyBy
  rw [isTooDeep_located, rootCause_located]

theorem isDeepOnlyBy_within (type id permission : String) :
    (f.within type id permission).IsDeepOnlyBy root
      ↔ f.IsDeepOnlyBy root := by
  unfold IsDeepOnlyBy
  rw [isTooDeep_within, rootCause_within]

/-- **Whether a failure comes from a count that stayed in its range**: it is
no overflow, and if it says that a limit was exceeded, it was this one. -/
def IsInRange (f : Failure) (limit : UInt32) : Prop :=
  f.rootCause ≠ .depthOverflow ∧
    ∀ n, f.rootCause = .depthExceeded n → n = limit.toNat

end Failure

theorem Resolver.isDeepOnlyBy_tooDeep (r : Resolver) :
    r.tooDeep.IsDeepOnlyBy r.tooDeep := by
  intro
  unfold tooDeep pastLimit
  split
  · rfl
  · rfl

/-- **An evaluation is too deep only by coming through all its levels**, if
no read fails by being too deep. -/
theorem Evaluation.isDeepOnlyBy_of_evaluate {q : Evaluation}
    (hr : ∀ f, q.resolver.FailsToRead f → ¬ f.IsTooDeep) {levels : Nat}
    {e : EntityRef} {rule : PermissionRule} {f : Failure}
    (h : q.evaluate levels e rule = .error f) :
    f.IsDeepOnlyBy q.resolver.tooDeep := by
  induction levels generalizing e rule f with
  | zero =>
    cases h
    exact q.resolver.isDeepOnlyBy_tooDeep
  | succ levels ih =>
    cases failsFor_of_step h with
    | rule h => exact h.isDeepOnlyBy
    | read h => exact Failure.isDeepOnlyBy_of_not (hr f h)
    | name _ _ h => exact ih h
    | parent _ _ hg => exact (Failure.isDeepOnlyBy_within ..).mpr (ih hg)

namespace Expansion

variable {x : Expansion} {deeper : Deeper} {root : Failure}
  (hr : ∀ f, x.resolver.FailsToRead f → ¬ f.IsTooDeep)
  (hd : ∀ {e rule f}, deeper e rule = .error f → f.IsDeepOnlyBy root)

include hr hd

theorem isDeepOnlyBy_of_expandName {e : EntityRef} {name : String}
    {f : Failure} (h : x.expandName deeper e name = .error f) :
    f.IsDeepOnlyBy root := by
  unfold expandName at h
  split at h
  next =>
    cases h
    exact Failure.IsOfRule.isDeepOnlyBy trivial
  next entity _ =>
    split at h
    next p _ =>
      rcases Outcome.bind_eq_error_iff.mp h with h | ⟨_, -, h⟩
      · exact hd h
      · exact absurd h Outcome.pure_ne_error
    next =>
      split at h
      next =>
        cases h
        exact Failure.IsOfRule.isDeepOnlyBy trivial
      next =>
        rcases Outcome.bind_eq_error_iff.mp h with h | ⟨_, -, h⟩
        · exact Failure.isDeepOnlyBy_of_not (hr f (.inl ⟨_, h⟩))
        · exact absurd h Outcome.pure_ne_error

theorem isDeepOnlyBy_of_expandMember {e : EntityRef}
    {relation permission : String} {f : Failure}
    (h : x.expandMember deeper e relation permission = .error f) :
    f.IsDeepOnlyBy root := by
  unfold expandMember at h
  split at h
  next =>
    cases h
    exact Failure.IsOfRule.isDeepOnlyBy trivial
  next r _ =>
    rcases Outcome.bind_eq_error_iff.mp h with h | ⟨parents, -, h⟩
    · rcases Outcome.bind_eq_error_iff.mp h with h | ⟨_, -, h⟩
      · exact Failure.isDeepOnlyBy_of_not (hr f (.inl ⟨_, h⟩))
      · exact absurd h Outcome.pure_ne_error
    rcases Outcome.bind_eq_error_iff.mp h with h | ⟨_, -, h⟩
    · obtain ⟨parent, -, h⟩ := Outcome.exists_of_mapM_eq_error h
      unfold expandParent at h
      split at h
      next => cases h
      next p _ =>
        rcases Outcome.bind_eq_error_iff.mp h with h | ⟨_, -, h⟩
        · exact hd h
        · exact absurd h Outcome.pure_ne_error
    · exact absurd h Outcome.pure_ne_error

theorem isDeepOnlyBy_of_step {e : EntityRef} {rule : PermissionRule}
    {f : Failure} (h : x.step deeper e rule = .error f) :
    f.IsDeepOnlyBy root := by
  induction rule with
  | relation name => exact isDeepOnlyBy_of_expandName hr hd h
  | binary op left right ihl ihr =>
    rcases Outcome.bind_eq_error_iff.mp h with h | ⟨_, -, h⟩
    · exact ihl h
    rcases Outcome.bind_eq_error_iff.mp h with h | ⟨_, -, h⟩
    · exact ihr h
    · exact absurd h Outcome.pure_ne_error
  | incomplete op left ih =>
    rcases Outcome.bind_eq_error_iff.mp h with h | ⟨_, -, h⟩
    · exact ih h
    · cases h
      exact Failure.IsOfRule.isDeepOnlyBy trivial
  | not operand ih => exact ih (Outcome.map_eq_error_iff.mp h)
  | notWith operand spare ih => exact ih (Outcome.map_eq_error_iff.mp h)
  | member relation permission => exact isDeepOnlyBy_of_expandMember hr hd h
  | inline expression => cases h
  | call name arguments =>
    cases h
    exact Failure.isDeepOnlyBy_of_not
      (by simp [Failure.IsTooDeep, Failure.rootCause])

omit hd in
/-- **So is an expansion.** -/
theorem isDeepOnlyBy_of_expand {levels : Nat} {e : EntityRef}
    {rule : PermissionRule} {f : Failure}
    (h : x.expand levels e rule = .error f) :
    f.IsDeepOnlyBy x.resolver.tooDeep := by
  induction levels generalizing e rule f with
  | zero =>
    cases h
    exact x.resolver.isDeepOnlyBy_tooDeep
  | succ levels ih => exact isDeepOnlyBy_of_step hr ih h

end Expansion

/-! ## Checks and expansions -/

namespace Resolver

variable {r : Resolver} {schema : Schema} {f : Failure}

/-- Finding a permission is never too deep. -/
theorem not_isTooDeep_of_findPermission {type permission : String}
    (h : findPermission schema type permission = .error f) :
    ¬ f.IsTooDeep := by
  unfold findPermission at h
  split at h
  · cases h
    simp [Failure.IsTooDeep, Failure.rootCause]
  · split at h
    · cases h
      simp [Failure.IsTooDeep, Failure.rootCause]
    · cases h

/-- Nor is refusing a blank field. -/
theorem not_isTooDeep_of_requireFields {fields : List (String × String)}
    (h : requireFields fields = .error f) : ¬ f.IsTooDeep := by
  unfold requireFields at h
  split at h
  · cases h
  · cases h
    simp [Failure.IsTooDeep, Failure.rootCause]

variable (hr : ∀ f, r.FailsToRead f → ¬ f.IsTooDeep)

include hr

theorem isDeepOnlyBy_of_checkInSchema {request : CheckRequest}
    (h : r.checkInSchema schema request = .error f) :
    f.IsDeepOnlyBy r.tooDeep := by
  rw [checkInSchema_eq] at h
  rcases Outcome.bind_eq_error_iff.mp h with h | ⟨p, -, h⟩
  · exact Failure.isDeepOnlyBy_of_not (not_isTooDeep_of_findPermission h)
  · obtain ⟨g, hg, rfl⟩ := Outcome.mapError_eq_error_iff.mp h
    exact (Failure.isDeepOnlyBy_located ..).mpr
      (Evaluation.isDeepOnlyBy_of_evaluate (q := r.evaluation schema request)
        hr hg)

variable (hs : ∀ version f, r.resolveSchema version = .error f →
  ¬ f.IsTooDeep)

include hs

/-- **A check is too deep only by coming through all its levels.** -/
theorem isDeepOnlyBy_of_check {request : CheckRequest}
    (h : r.check request = .error f) : f.IsDeepOnlyBy r.tooDeep := by
  rcases Outcome.bind_eq_error_iff.mp h with h | ⟨_, -, h⟩
  · exact Failure.isDeepOnlyBy_of_not (not_isTooDeep_of_requireFields h)
  rcases Outcome.bind_eq_error_iff.mp h with h | ⟨schema, -, h⟩
  · exact Failure.isDeepOnlyBy_of_not (hs _ f h)
  · exact isDeepOnlyBy_of_checkInSchema hr h

/-- So is an expansion. -/
theorem isDeepOnlyBy_of_expand {request : ExpandRequest}
    (h : r.expand request = .error f) : f.IsDeepOnlyBy r.tooDeep := by
  rw [expand_eq] at h
  rcases Outcome.bind_eq_error_iff.mp h with h | ⟨_, -, h⟩
  · exact Failure.isDeepOnlyBy_of_not (not_isTooDeep_of_requireFields h)
  rcases Outcome.bind_eq_error_iff.mp h with h | ⟨schema, -, h⟩
  · exact Failure.isDeepOnlyBy_of_not (hs _ f h)
  rcases Outcome.bind_eq_error_iff.mp h with h | ⟨p, -, h⟩
  · exact Failure.isDeepOnlyBy_of_not (not_isTooDeep_of_findPermission h)
  · exact Expansion.isDeepOnlyBy_of_expand (x := ⟨r, schema⟩) hr h

end Resolver

namespace Service

variable {engine : ExpressionEngine} {f : Failure}

/-- A read of a service is never too deep. -/
theorem not_isTooDeep_of_failsToRead {s : Service engine} {tenant : String}
    (h : (s.resolver tenant).FailsToRead f) : ¬ f.IsTooDeep := by
  rcases h with ⟨filter, h⟩ | ⟨e, h⟩
  · exact (Store.isOfReading_of_queryTuples h).not_isTooDeep
  · exact (Store.isOfReading_of_unlessFaulty h).not_isTooDeep

/-- Nor does a text that is no schema say so. -/
theorem not_isTooDeep_of_compileSchema {check : ExpressionCheck}
    {tenant version source : String} {createdAt : Int}
    (h : compileSchema check tenant version source createdAt = .error f) :
    ¬ f.IsTooDeep := by
  unfold compileSchema at h
  split at h
  · cases h
    simp [Failure.IsTooDeep, Failure.rootCause]
  · split at h
    · obtain ⟨_, -, _, -, -, rfl⟩ := Document.toSchema_eq_error h
      simp [Failure.IsTooDeep, Failure.rootCause]
    · cases h
      simp [Failure.IsTooDeep, Failure.rootCause]

theorem not_isTooDeep_of_storeError {α : Type} {x : Except StoreError α}
    (h : x.mapError Failure.ofStoreError = .error f) : ¬ f.IsTooDeep := by
  obtain ⟨error, -, rfl⟩ := Outcome.mapError_eq_error_iff.mp h
  cases error <;> simp [Failure.ofStoreError, Failure.IsTooDeep,
    Failure.rootCause]

/-- **The schema of a service is never too deep**, whatever is kept of
it. -/
theorem not_isTooDeep_of_resolveSchema {s : Service engine} {tenant : String}
    {version : Option String}
    (h : (s.resolver tenant).resolveSchema version = .error f) :
    ¬ f.IsTooDeep := by
  have hcompiled : ∀ stored, s.schemas.compiled engine.refusal? tenant stored
      = .error f → ¬ f.IsTooDeep := by
    intro stored h
    unfold SchemaCache.compiled at h
    split at h
    · cases h
    · exact not_isTooDeep_of_compileSchema h
  have h : s.schemas.read engine.refusal? s.store tenant
      (versionMeant version) = .error f := h
  unfold SchemaCache.read at h
  split at h
  · split at h
    · cases h
    · rcases Outcome.bind_eq_error_iff.mp h with h | ⟨stored, -, h⟩
      · exact not_isTooDeep_of_storeError h
      · exact hcompiled stored h
  · rcases Outcome.bind_eq_error_iff.mp h with h | ⟨stored, -, h⟩
    · exact not_isTooDeep_of_storeError h
    · exact hcompiled stored h

/-- Unless the greatest number is the limit, a run of a service that is too
deep has exceeded the limit. -/
theorem isInRange_of_isDeepOnlyBy {s : Service engine} {tenant : String}
    (hlimit : s.settings.engine.maxDepth ≠ 0xFFFFFFFF)
    (h : f.IsDeepOnlyBy (s.resolver tenant).tooDeep) :
    f.IsInRange s.settings.engine.maxDepth := by
  have hend : (s.resolver tenant).tooDeep
      = .depthExceeded s.settings.engine.maxDepth.toNat := if_neg hlimit
  rw [hend] at h
  constructor
  · intro hover
    cases (h (.inr hover)).symm.trans hover
  · intro limit hdeep
    cases (h (.inl ⟨limit, hdeep⟩)).symm.trans hdeep
    rfl

/-- **The depth never leaves its 32 bits**, unless the greatest number is
the limit. Whatever a service was written and whatever is asked, a check or an
expansion does not overflow, and neither does one of the checks that a query
of many makes in its schema. If one of them fails because it was too deep, it
has exceeded the limit. -/
theorem depth_count_stays_in_range (s : Service engine) (tenant : String)
    (hlimit : s.settings.engine.maxDepth ≠ 0xFFFFFFFF) :
    (∀ request f, (s.resolver tenant).check request = .error f →
      f.IsInRange s.settings.engine.maxDepth) ∧
    (∀ schema request f,
      (s.resolver tenant).checkInSchema schema request = .error f →
        f.IsInRange s.settings.engine.maxDepth) ∧
    (∀ request f, (s.resolver tenant).expand request = .error f →
      f.IsInRange s.settings.engine.maxDepth) := by
  have hr : ∀ f, (s.resolver tenant).FailsToRead f → ¬ f.IsTooDeep :=
    fun _ => not_isTooDeep_of_failsToRead
  have hs : ∀ version f, (s.resolver tenant).resolveSchema version = .error f →
      ¬ f.IsTooDeep := fun _ _ => not_isTooDeep_of_resolveSchema
  refine ⟨fun request f h => ?_, fun schema request f h => ?_,
    fun request f h => ?_⟩
  · exact isInRange_of_isDeepOnlyBy hlimit
      (Resolver.isDeepOnlyBy_of_check hr hs h)
  · exact isInRange_of_isDeepOnlyBy hlimit
      (Resolver.isDeepOnlyBy_of_checkInSchema hr h)
  · exact isInRange_of_isDeepOnlyBy hlimit
      (Resolver.isDeepOnlyBy_of_expand hr hs h)

/-! ## A folder in itself -/

/-- Whoever views the folder that a folder is in views the folder. -/
def loopSource : String :=
  "entity folder \x7b relation parent @folder permission view = parent.view \x7d"

/-- A folder is its own parent, and there is a limit on the depth. -/
def loopService (limit : UInt32) : Service Condition.engine :=
  ({ settings := { engine := { maxDepth := limit } } } : Service _).after
    [.operation (.writeSchema "t" loopSource "v" 0),
      .operation (.writeRelationships "t"
        [⟨"folder", "a", "parent", "folder", "a", none⟩])]

/-- Whether someone views it. -/
def loopRequest : CheckRequest where
  tenant := "t"
  entity := ⟨"folder", "a"⟩
  permission := "view"
  subject := ⟨"user", "u"⟩

/-- Who does. -/
def loopExpansion : ExpandRequest where
  tenant := "t"
  entity := ⟨"folder", "a"⟩
  permission := "view"

/-- The limit that an outcome is beyond, if it is. -/
def limitPassed? {α : Type} : Except Failure α → Option Nat
  | .ok _ => none
  | .error f =>
    match f.rootCause with
    | .depthExceeded limit => some limit
    | _ => none

theorem exists_of_limitPassed? {α : Type} {x : Except Failure α}
    (h : (limitPassed? x).isSome) :
    ∃ f limit, x = .error f ∧ f.rootCause = .depthExceeded limit := by
  unfold limitPassed? at h
  split at h
  next => cases h
  next f =>
    split at h
    next limit hroot => exact ⟨f, limit, rfl, hroot⟩
    next => cases h

/-- Under a smaller limit the parents are followed to the first depth beyond
it, and there they end. -/
theorem loop_ends_beyond_the_limit :
    (∃ f, ((loopService 3).resolver "t").check loopRequest = .error f ∧
      f.rootCause = .depthExceeded 3) ∧
    (∃ f, ((loopService 3).resolver "t").expand loopExpansion = .error f ∧
      f.rootCause = .depthExceeded 3) := by
  obtain ⟨hcheck, -, hexpand⟩ := depth_count_stays_in_range (loopService 3)
    "t" (by decide +kernel)
  have hlimit : (loopService 3).settings.engine.maxDepth.toNat = 3 := by
    decide +kernel
  constructor
  · obtain ⟨f, limit, hf, hroot⟩ := exists_of_limitPassed?
      (x := ((loopService 3).resolver "t").check loopRequest)
      (by decide +kernel)
    rw [(hcheck _ f hf).2 limit hroot, hlimit] at hroot
    exact ⟨f, hf, hroot⟩
  · obtain ⟨f, limit, hf, hroot⟩ := exists_of_limitPassed?
      (x := ((loopService 3).resolver "t").expand loopExpansion)
      (by decide +kernel)
    rw [(hexpand _ f hf).2 limit hroot, hlimit] at hroot
    exact ⟨f, hf, hroot⟩

/-- The schema that is compiled from the text. -/
def loopSchema : Schema where
  tenant := "t"
  version := "v"
  source := loopSource
  rules := []
  entities := [{
    name := "folder"
    relations := [⟨"parent", [⟨"folder", none⟩]⟩]
    permissions := [⟨"view", .member "parent" "view"⟩] }]
  createdAt := 0
  updatedAt := 0

/-- What is evaluated under the greatest limit. -/
def loopEvaluation : Evaluation :=
  ((loopService 0xFFFFFFFF).resolver "t").evaluation loopSchema loopRequest

/-- What fails of the folder one level deeper fails of it. -/
theorem step_loopEvaluation {deeper : Evaluation.Deeper} {f : Failure}
    (h : deeper ⟨"folder", "a"⟩ (.member "parent" "view") = .error f) :
    loopEvaluation.step deeper ⟨"folder", "a"⟩ (.member "parent" "view")
      = .error (f.within "folder" "a" "view") := by
  have hparents : loopEvaluation.parents ⟨"folder", "a"⟩
      ⟨"parent", [⟨"folder", none⟩]⟩ = .ok [⟨"folder", "a"⟩] :=
    Outcome.eq_ok_of_toOption (by decide +kernel)
  have hparent : loopEvaluation.holdsOnParent deeper "view" ⟨"folder", "a"⟩
      = .error (f.within "folder" "a" "view") := by
    show (deeper ⟨"folder", "a"⟩ (.member "parent" "view")).mapError _ = _
    rw [h]
    rfl
  show (loopEvaluation.parents ⟨"folder", "a"⟩ ⟨"parent", [⟨"folder", none⟩]⟩
    >>= fun parents =>
      parents.anyM (loopEvaluation.holdsOnParent deeper "view")) = _
  rw [hparents]
  show (loopEvaluation.holdsOnParent deeper "view" ⟨"folder", "a"⟩ >>= _) = _
  rw [hparent]
  rfl

/-- **The count goes through all the levels**, however many are left, and
over the last one. -/
theorem evaluate_loopEvaluation (levels : Nat) :
    ∃ f, loopEvaluation.evaluate levels ⟨"folder", "a"⟩
        (.member "parent" "view") = .error f ∧
      f.rootCause = .depthOverflow := by
  induction levels with
  | zero =>
    have hlimit : loopEvaluation.resolver.maxDepth = 0xFFFFFFFF := by
      decide +kernel
    exact ⟨_, rfl, by rw [Resolver.tooDeep, hlimit]; rfl⟩
  | succ levels ih =>
    obtain ⟨f, hf, hroot⟩ := ih
    exact ⟨_, step_loopEvaluation hf, by rw [Failure.rootCause_within, hroot]⟩

/-- What is expanded under the greatest limit. -/
def loopTree : Expansion where
  resolver := (loopService 0xFFFFFFFF).resolver "t"
  schema := loopSchema

/-- The folder has no tree if it has none one level deeper. -/
theorem step_loopTree {deeper : Expansion.Deeper} {f : Failure}
    (h : deeper ⟨"folder", "a"⟩ (.member "parent" "view") = .error f) :
    loopTree.step deeper ⟨"folder", "a"⟩ (.member "parent" "view")
      = .error f := by
  have hparents : loopTree.parents ⟨"folder", "a"⟩
      ⟨"parent", [⟨"folder", none⟩]⟩ = .ok [⟨"folder", "a"⟩] :=
    Outcome.eq_ok_of_toOption (by decide +kernel)
  have hparent : loopTree.expandParent deeper "view" ⟨"folder", "a"⟩
      = .error f := by
    show (deeper ⟨"folder", "a"⟩ (.member "parent" "view") >>= _) = _
    rw [h]
    rfl
  show (loopTree.parents ⟨"folder", "a"⟩ ⟨"parent", [⟨"folder", none⟩]⟩
    >>= fun parents =>
      parents.mapM (loopTree.expandParent deeper "view") >>= _) = _
  rw [hparents]
  show ([⟨"folder", "a"⟩].mapM (loopTree.expandParent deeper "view") >>= _)
    = _
  rw [List.mapM_cons, hparent]
  rfl

/-- So its expansion goes over the last level, too. -/
theorem expand_loopTree (levels : Nat) :
    loopTree.expand levels ⟨"folder", "a"⟩ (.member "parent" "view")
      = .error .depthOverflow := by
  induction levels with
  | zero =>
    have hlimit : loopTree.resolver.maxDepth = 0xFFFFFFFF := by
      decide +kernel
    show Except.error loopTree.resolver.tooDeep = _
    rw [Resolver.tooDeep, hlimit]
    rfl
  | succ levels ih => exact step_loopTree ih

/-- **The greatest number is admitted as a limit, and under it the count goes
too far.** The schema of the folder in itself compiles. Its check and its
expansion pass the greatest depth, and there is no next one to end them. -/
theorem greatest_limit_counts_too_far :
    (loopService 0xFFFFFFFF).settings.fault? = none ∧
    ((loopService 0xFFFFFFFF).resolver "t").resolveSchema none
      = .ok loopSchema ∧
    (∃ f, ((loopService 0xFFFFFFFF).resolver "t").check loopRequest
        = .error f ∧ f.rootCause = .depthOverflow) ∧
    ((loopService 0xFFFFFFFF).resolver "t").expand loopExpansion
      = .error .depthOverflow := by
  have hschema : ((loopService 0xFFFFFFFF).resolver "t").resolveSchema none
      = .ok loopSchema := Outcome.eq_ok_of_toOption (by decide +kernel)
  have hpermission : loopSchema.permission? "folder" "view"
      = some ⟨"view", .member "parent" "view"⟩ := rfl
  refine ⟨by decide +kernel, hschema, ?_, ?_⟩
  · obtain ⟨f, hf, hroot⟩ := evaluate_loopEvaluation
      (((loopService 0xFFFFFFFF).resolver "t").levelsLeft 0)
    refine ⟨f.located "folder" "a" "view", ?_, by
      rw [Failure.rootCause_located, hroot]⟩
    rw [Resolver.check_of_schema rfl hschema,
      Resolver.checkInSchema_of_permission hpermission]
    exact congrArg (Except.mapError _) hf
  · rw [Resolver.expand_of_permission rfl hschema hpermission]
    exact expand_loopTree _

end Service

end Entitlement
