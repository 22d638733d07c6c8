import Entitlement.Proofs.Access.Comparison
import Entitlement.Proofs.Access.Depth
import Entitlement.Proofs.Access.Expansion

/-!
# What a greater limit changes

The limit on the depth ends evaluations and expansions that would go on too
long, and it does nothing else: a run that was not too deep comes to the
same end under any limit that leaves it at least as many levels. This holds
because a failure is never taken for a denial on the way. No operand, no
negation and no search among parents turns one into an answer, and where a
failure is wrapped it keeps its cause.

How many levels are left is the distance from the depth where the
evaluation starts to the limit. The greatest limit is no exception: a run
that would go beyond it overflows instead of failing, and so comes to no end
that any other limit would have to keep.
-/

namespace Entitlement

/-- The resolver under another limit. -/
def Resolver.limitedTo (r : Resolver) (limit : UInt32) : Resolver :=
  { r with maxDepth := limit }

/-- The evaluation under another limit. -/
def Evaluation.limitedTo (q : Evaluation) (limit : UInt32) : Evaluation :=
  { q with resolver := q.resolver.limitedTo limit }

/-- The expansion under another limit. -/
def Expansion.limitedTo (x : Expansion) (limit : UInt32) : Expansion :=
  { x with resolver := x.resolver.limitedTo limit }

/-- **The levels that are left grow with the distance to the limit.** -/
theorem Resolver.levelsLeft_le {limit depth limit' depth' : UInt32}
    (hdepth : depth ≤ limit) (hdepth' : depth' ≤ limit')
    (hroom : limit - depth ≤ limit' - depth') (r : Resolver) :
    (r.limitedTo limit).levelsLeft depth
      ≤ (r.limitedTo limit').levelsLeft depth' := by
  have hroom : (limit - depth).toNat ≤ (limit' - depth').toNat := hroom
  have hdepth : depth.toNat ≤ limit.toNat := hdepth
  have hdepth' : depth'.toNat ≤ limit'.toNat := hdepth'
  rw [UInt32.toNat_sub_of_le _ _ hdepth, UInt32.toNat_sub_of_le _ _ hdepth']
    at hroom
  show limit.toNat + 1 - depth.toNat ≤ limit'.toNat + 1 - depth'.toNat
  omega

/-- Being too deep is so wherever it is met. -/
theorem Failure.isExcuse_isTooDeep : IsExcuse IsTooDeep :=
  fun type id permission => (isTooDeep_located type id permission).mpr

/-! ## Evaluations -/

namespace Evaluation

/-- The limit is no part of what an evaluation asks. -/
theorem settles_limitedTo (q : Evaluation) (limit limit' : UInt32) :
    (q.limitedTo limit).Settles Failure.IsTooDeep (fun _ _ => True)
      (q.limitedTo limit') where
  schema := rfl
  direct _ _ := .refl _
  userset _ _ := .refl _
  parents _ _ _ := .refl _
  satisfies _ _ _ := .refl _

/-- **More levels settle what fewer do**, whatever the limits are called. -/
theorem settles_evaluate_limitedTo (q : Evaluation) (limit limit' : UInt32)
    {levels levels' : Nat} (h : levels ≤ levels') (e : EntityRef)
    (rule : PermissionRule) :
    Outcome.Settles Failure.IsTooDeep
      ((q.limitedTo limit).evaluate levels e rule)
      ((q.limitedTo limit').evaluate levels' e rule) := by
  obtain ⟨more, rfl⟩ := Nat.exists_eq_add_of_le' h
  exact (q.settles_limitedTo limit limit').evaluate
    Failure.isExcuse_isTooDeep (fun _ _ _ => trivial)
    (fun _ _ => .of_excused (Resolver.isTooDeep_tooDeep _) _) levels
    fun _ _ => trivial

end Evaluation

/-! ## Expansions -/

namespace Expansion

variable {x : Expansion} {limit limit' : UInt32} {deeper deeper' : Deeper}

/-- Whether what happens one level deeper settles what happens there in
another expansion. -/
def Below (deeper deeper' : Deeper) : Prop :=
  ∀ e rule, Outcome.Settles Failure.IsTooDeep (deeper e rule)
    (deeper' e rule)

theorem settles_expandName (hbelow : Below deeper deeper') (e : EntityRef)
    (name : String) :
    Outcome.Settles Failure.IsTooDeep
      ((x.limitedTo limit).expandName deeper e name)
      ((x.limitedTo limit').expandName deeper' e name) := by
  unfold expandName
  rw [show (x.limitedTo limit').schema = (x.limitedTo limit).schema from rfl]
  split
  next => exact .refl _
  next =>
    split
    next p _ => exact (hbelow e p.rule).bind fun _ _ => .refl _
    next => exact .refl _

theorem settles_expandMember (hbelow : Below deeper deeper') (e : EntityRef)
    (relation permission : String) :
    Outcome.Settles Failure.IsTooDeep
      ((x.limitedTo limit).expandMember deeper e relation permission)
      ((x.limitedTo limit').expandMember deeper' e relation permission) := by
  unfold expandMember
  rw [show (x.limitedTo limit').schema = (x.limitedTo limit).schema from rfl]
  split
  next => exact .refl _
  next r _ =>
    refine Outcome.Settles.bind (.refl _) fun parents _ => ?_
    refine Outcome.Settles.bind ?_ fun _ _ => .refl _
    refine Outcome.Settles.mapM fun parent _ => ?_
    unfold expandParent
    rw [show (x.limitedTo limit').schema = (x.limitedTo limit).schema from rfl]
    split
    next => exact .refl _
    next p _ => exact (hbelow parent p.rule).bind fun _ _ => .refl _

/-- One level of an expansion settles the same level under another limit,
if the levels below do. -/
theorem settles_step (hbelow : Below deeper deeper') (e : EntityRef)
    (rule : PermissionRule) :
    Outcome.Settles Failure.IsTooDeep
      ((x.limitedTo limit).step deeper e rule)
      ((x.limitedTo limit').step deeper' e rule) := by
  induction rule with
  | relation name => exact settles_expandName hbelow e name
  | binary op left right ihl ihr =>
    exact ihl.bind fun _ _ => ihr.bind fun _ _ => .refl _
  | incomplete op left ih => exact ih.bind fun _ _ => .refl _
  | not operand ih => exact ih.map _
  | notWith operand spare ih => exact ih.map _
  | member relation permission =>
    exact settles_expandMember hbelow e relation permission
  | inline expression => exact .refl _
  | call name arguments => exact .refl _

/-- **More levels settle what fewer do.** -/
theorem settles_expand_limitedTo (x : Expansion) (limit limit' : UInt32)
    {levels levels' : Nat} (h : levels ≤ levels') (e : EntityRef)
    (rule : PermissionRule) :
    Outcome.Settles Failure.IsTooDeep
      ((x.limitedTo limit).expand levels e rule)
      ((x.limitedTo limit').expand levels' e rule) := by
  induction levels generalizing levels' e rule with
  | zero => exact .of_excused (Resolver.isTooDeep_tooDeep _) _
  | succ levels ih =>
    obtain ⟨levels', rfl⟩ := Nat.exists_eq_add_of_lt h
    exact settles_step (fun e rule => ih (Nat.le_add_right _ _) e rule) e rule

end Expansion

namespace Resolver

/-- **A greater limit only spares depth failures.** An evaluation of any
rule, in any schema and over any data, that comes to an answer or fails
otherwise than by its depth, comes to the same under every limit and from
every depth that leave it at least as much room. So does an expansion under
a greater limit. -/
theorem outcomes_stay_under_greater_limit (limit limit' : UInt32) :
    (∀ (q : Evaluation) (e : EntityRef) (rule : PermissionRule)
      {depth depth' : UInt32}, depth ≤ limit → depth' ≤ limit' →
      limit - depth ≤ limit' - depth' →
      ∀ outcome, (q.limitedTo limit).evaluateAt depth e rule = outcome →
        (∀ f, outcome = .error f → ¬ f.IsTooDeep) →
        (q.limitedTo limit').evaluateAt depth' e rule = outcome) ∧
    (∀ (r : Resolver) (request : ExpandRequest), limit ≤ limit' →
      ∀ outcome, (r.limitedTo limit).expand request = outcome →
        (∀ f, outcome = .error f → ¬ f.IsTooDeep) →
        (r.limitedTo limit').expand request = outcome) := by
  constructor
  · rintro q e rule depth depth' hdepth hdepth' hroom outcome rfl hdeep
    have hlevels := levelsLeft_le hdepth hdepth' hroom q.resolver
    rw [Evaluation.evaluateAt_eq] at hdeep ⊢
    rw [Evaluation.evaluateAt_eq]
    exact ((q.settles_evaluate_limitedTo limit limit' hlevels e rule).eq
      hdeep).symm
  · rintro r request hlimit outcome rfl hdeep
    refine (Outcome.Settles.eq ?_ hdeep).symm
    rw [expand_eq, expand_eq]
    refine Outcome.Settles.bind (.refl _) fun _ _ => ?_
    refine Outcome.Settles.bind (.refl _) fun schema _ => ?_
    refine Outcome.Settles.bind (.refl _) fun p _ => ?_
    rw [levelsLeft_zero, levelsLeft_zero]
    exact Expansion.settles_expand_limitedTo ⟨r, schema⟩ limit limit'
      (Nat.succ_le_succ hlimit) request.entity p.rule

/-- The folder that is viewed by way of another one is so at any depth that
leaves as many levels, the greatest one included, and its tree is the
same. -/
theorem folders_stay_under_greater_limit :
    (Evaluation.folderEvaluation.limitedTo 0xFFFFFFFF).evaluateAt 0xFFFFFFFC
        ⟨"folder", "b"⟩ (.relation "view") = .ok true ∧
      (teamResolver.limitedTo 100).expand teamRequest = .ok innerTree := by
  have hview : (Evaluation.folderEvaluation.limitedTo 3).evaluateAt 0
      ⟨"folder", "b"⟩ (.relation "view") = .ok true := by
    rw [Evaluation.evaluateAt_eq]
    rfl
  have htree : (teamResolver.limitedTo 3).expand teamRequest
      = .ok innerTree := by
    rw [expand_eq]
    rfl
  constructor
  · exact (outcomes_stay_under_greater_limit 3 0xFFFFFFFF).1
      Evaluation.folderEvaluation ⟨"folder", "b"⟩ (.relation "view")
      (by decide) (by decide) (by decide) _ hview (by simp)
  · exact (outcomes_stay_under_greater_limit 3 100).2 teamResolver teamRequest
      (by decide) _ htree (by simp)

end Resolver

end Entitlement
