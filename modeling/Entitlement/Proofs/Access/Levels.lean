import Entitlement.Access.Check
import Entitlement.Access.Expand

/-!
# The levels that are left

Queries count the depth that they have come to upwards, and what is true of
them is shown downwards, by induction on the levels that are left. The two
come to the same (`descend_eq`): at a depth there are as many levels left as
there are depths up to the limit.

What ends a descent without levels depends on the limit. Any limit but the
greatest number has a depth behind it, and there the rule is too deep. Behind
the greatest number there is none, so the count overflows.
-/

namespace Entitlement

namespace Failure

/-- Whether a failure is that the depth was exceeded or that it overflowed,
whatever it is wrapped in. -/
def IsTooDeep (f : Failure) : Prop :=
  (∃ limit, f.rootCause = .depthExceeded limit) ∨
    f.rootCause = .depthOverflow

@[simp] theorem isTooDeep_located {f : Failure} (type id permission : String) :
    (f.located type id permission).IsTooDeep ↔ f.IsTooDeep := by
  unfold IsTooDeep
  rw [rootCause_located]

@[simp] theorem isTooDeep_within {f : Failure} (type id permission : String) :
    (f.within type id permission).IsTooDeep ↔ f.IsTooDeep := by
  unfold IsTooDeep
  rw [rootCause_within]

end Failure

/-- **How a descent ends that has come through all its levels.** -/
def pastLimit (limit : UInt32) : Failure :=
  if limit = 0xFFFFFFFF then .depthOverflow else .depthExceeded limit.toNat

/-- Behind a depth that is not beyond the limit there is none only if it is
the greatest, and then so is the limit. -/
theorem eq_greatest_of_nextDepth? {limit depth : UInt32}
    (h : nextDepth? depth = none) (hle : depth.toNat ≤ limit.toNat) :
    limit = 0xFFFFFFFF ∧ limit.toNat = depth.toNat := by
  unfold nextDepth? at h
  split at h
  next => cases h
  next hge =>
    have hge : ¬ depth.toNat < 0xFFFFFFFF := hge
    have hlt := limit.toNat_lt
    have hlimit : limit.toNat = 0xFFFFFFFF := by omega
    exact ⟨UInt32.toNat_inj.mp hlimit, by omega⟩

/-- **A descent is one by the levels that are left.** -/
theorem descend_eq {α : Type} {limit : UInt32}
    {step : Descent α → Descent α} {descent : Nat → Descent α}
    (hzero : descent 0 = fun _ _ => .error (pastLimit limit))
    (hsucc : ∀ levels, descent (levels + 1) = step (descent levels))
    (depth : UInt32) :
    descend limit step depth
      = descent (limit.toNat + 1 - depth.toNat) := by
  generalize hlevels : limit.toNat + 1 - depth.toNat = levels
  induction levels generalizing depth with
  | zero =>
    have hover : limit.toNat < depth.toNat := by omega
    have hne : limit ≠ 0xFFFFFFFF := by
      rintro rfl
      exact absurd depth.toNat_lt (Nat.not_lt.mpr hover)
    funext e rule
    rw [descend, if_pos (UInt32.lt_iff_toNat_lt.mpr hover), hzero, pastLimit,
      if_neg hne]
  | succ levels ih =>
    have hle : depth.toNat ≤ limit.toNat := by omega
    have hunder : ¬ limit < depth := fun h =>
      Nat.not_lt.mpr hle (UInt32.lt_iff_toNat_lt.mp h)
    funext e rule
    rw [descend, if_neg hunder, hsucc]
    congr 1
    split
    next h =>
      -- behind the greatest depth no level is left
      obtain ⟨hgreatest, hlast⟩ := eq_greatest_of_nextDepth? h hle
      obtain rfl : levels = 0 := by omega
      rw [hzero, pastLimit, if_pos hgreatest]
    next next h =>
      rw [ih next (by rw [toNat_of_nextDepth? h]; omega)]

namespace Resolver

/-- How a query ends that has come through all its levels. -/
def tooDeep (r : Resolver) : Failure := pastLimit r.maxDepth

theorem isTooDeep_tooDeep (r : Resolver) : r.tooDeep.IsTooDeep := by
  unfold tooDeep pastLimit
  split
  · exact .inr rfl
  · exact .inl ⟨_, rfl⟩

/-- **The levels that are left at a depth.** -/
def levelsLeft (r : Resolver) (depth : UInt32) : Nat :=
  r.maxDepth.toNat + 1 - depth.toNat

/-- What starts at depth zero has the levels up to the limit. -/
@[simp] theorem levelsLeft_zero (r : Resolver) :
    r.levelsLeft 0 = r.maxDepth.toNat + 1 := rfl

end Resolver

namespace Evaluation

/-- **A rule, evaluated with so many levels left.** -/
def evaluate (q : Evaluation) : Nat → Deeper
  | 0, _, _ => .error q.resolver.tooDeep
  | levels + 1, e, rule => q.step (q.evaluate levels) e rule

theorem evaluateAt_eq (q : Evaluation) (depth : UInt32) :
    q.evaluateAt depth = q.evaluate (q.resolver.levelsLeft depth) :=
  descend_eq rfl (fun _ => rfl) depth

end Evaluation

/-- A check in a schema evaluates the rule of the permission with the levels
up to the limit. -/
theorem Resolver.checkInSchema_eq (r : Resolver) (schema : Schema)
    (request : CheckRequest) :
    r.checkInSchema schema request = (do
      let permission ← findPermission schema request.entity.type
        request.permission
      ((r.evaluation schema request).evaluate (r.levelsLeft 0) request.entity
        permission.rule).mapError (Failure.located request.entity.type
          request.entity.id request.permission)) := by
  unfold checkInSchema
  simp only [Evaluation.evaluateAt_eq]
  rfl

/-- So does a check. -/
theorem Resolver.check_eq (r : Resolver) (request : CheckRequest) :
    r.check request = (do
      request.validate
      let schema ← r.resolveSchema request.version
      let permission ← findPermission schema request.entity.type
        request.permission
      ((r.evaluation schema request).evaluate (r.levelsLeft 0) request.entity
        permission.rule).mapError (Failure.located request.entity.type
          request.entity.id request.permission)) := by
  unfold check
  simp only [checkInSchema_eq]

namespace Expansion

/-- **A rule, expanded with so many levels left.** -/
def expand (x : Expansion) : Nat → Deeper
  | 0, _, _ => .error x.resolver.tooDeep
  | levels + 1, e, rule => x.step (x.expand levels) e rule

theorem expandAt_eq (x : Expansion) (depth : UInt32) :
    x.expandAt depth = x.expand (x.resolver.levelsLeft depth) :=
  descend_eq rfl (fun _ => rfl) depth

end Expansion

/-- So is the rule of a permission expanded. -/
theorem Resolver.expand_eq (r : Resolver) (request : ExpandRequest) :
    r.expand request = (do
      request.validate
      let schema ← r.resolveSchema request.version
      let permission ← findPermission schema request.entity.type
        request.permission
      Expansion.expand ⟨r, schema⟩ (r.levelsLeft 0) request.entity
        permission.rule) := by
  unfold expand
  simp only [Expansion.expandAt_eq]

end Entitlement
