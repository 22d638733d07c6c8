import Entitlement.Proofs.Access.Step
import Entitlement.Proofs.Schema.Reach

/-!
# How an evaluation comes to fail

One level of an evaluation fails for one of four reasons
(`Evaluation.failsFor_of_step`): the rule has no meaning where it is
evaluated, a read failed, or a level below failed, which belongs either to
a permission of the same entity that the rule names or to a permission of
a parent. What is true of all failures of an evaluation is therefore shown
for these four, and then by induction on the levels.

The first such statement is about time: an evaluation takes too long only
if a read does (`Evaluation.evaluate_ne_timeout`).
-/

namespace Entitlement

/-- Whether a failure is about a rule that has no meaning where it is
evaluated: it names what is not declared, lacks an operand, or has an
expression without a truth value. -/
def Failure.IsOfRule : Failure → Prop
  | entityNotFound _ => True
  | relationNotFound .. => True
  | ruleNotFound _ => True
  | arityMismatch .. => True
  | missingOperand _ => True
  | expression .. => True
  | _ => False

/-- **Whether a resolver fails to read** with a failure. -/
def Resolver.FailsToRead (r : Resolver) (f : Failure) : Prop :=
  (∃ filter, r.tuples filter = .error f) ∨ ∃ e, r.attributes e = .error f

namespace Evaluation

variable {q : Evaluation} {deeper : Deeper} {e : EntityRef} {f : Failure}

/-! ## Reads -/

theorem failsToRead_of_holdsDirectly {relation : String}
    (h : q.holdsDirectly e relation = .error f) :
    q.resolver.FailsToRead f := by
  unfold holdsDirectly at h
  split at h
  · cases h
  · rcases Outcome.bind_eq_error_iff.mp h with h | ⟨stored, -, h⟩
    · exact Or.inl ⟨_, h⟩
    · exact absurd h Outcome.pure_ne_error

theorem failsToRead_of_tuplesOn {relation : String}
    (h : q.tuplesOn e relation = .error f) : q.resolver.FailsToRead f := by
  rcases Outcome.bind_eq_error_iff.mp h with h | ⟨stored, -, h⟩
  · exact Or.inl ⟨_, h⟩
  · exact absurd h Outcome.pure_ne_error

theorem failsToRead_of_holdsViaUserset {relation : String}
    (h : q.holdsViaUserset e relation = .error f) :
    q.resolver.FailsToRead f := by
  rcases Outcome.bind_eq_error_iff.mp h with h | ⟨tuples, -, h⟩
  · exact failsToRead_of_tuplesOn h
  · obtain ⟨t, -, h⟩ := Outcome.exists_of_anyM_eq_error h
    unfold holdsUserset at h
    split at h
    · cases h
    · exact failsToRead_of_holdsDirectly h

theorem failsToRead_of_parents {relation : Relation}
    (h : q.parents e relation = .error f) : q.resolver.FailsToRead f := by
  rcases Outcome.bind_eq_error_iff.mp h with h | ⟨tuples, -, h⟩
  · exact failsToRead_of_tuplesOn h
  · exact absurd h Outcome.pure_ne_error

/-! ## One level -/

/-- Whether a relation of an entity was read to lead to a parent. -/
def HasParent (q : Evaluation) (e parent : EntityRef) : Prop :=
  ∃ entity relation r parents, q.schema.entity? e.type = some entity ∧
    entity.relation? relation = some r ∧ q.parents e r = .ok parents ∧
    parent ∈ parents

/-- **Why one level of an evaluation fails.** -/
inductive FailsFor (q : Evaluation) (deeper : Deeper) (e : EntityRef)
    (rule : PermissionRule) : Failure → Prop
  | rule {f : Failure} : f.IsOfRule → FailsFor q deeper e rule f
  | read {f : Failure} :
      q.resolver.FailsToRead f → FailsFor q deeper e rule f
  /-- A permission of the same entity failed. -/
  | name {name : String} {p : Permission} {f : Failure} :
      name ∈ rule.names → q.schema.permission? e.type name = some p →
        deeper e p.rule = .error f → FailsFor q deeper e rule f
  /-- A permission of a parent failed. -/
  | parent {parent : EntityRef} {permission : String} {p : Permission}
      {f : Failure} :
      q.HasParent e parent →
        q.schema.permission? parent.type permission = some p →
          deeper parent p.rule = .error f →
            FailsFor q deeper e rule
              (f.within parent.type parent.id permission)

/-- A part of a rule fails for what the whole rule fails for. -/
theorem FailsFor.mono {rule rule' : PermissionRule}
    (h : q.FailsFor deeper e rule f)
    (hnames : ∀ name ∈ rule.names, name ∈ rule'.names) :
    q.FailsFor deeper e rule' f := by
  cases h with
  | rule h => exact .rule h
  | read h => exact .read h
  | name hname hp h => exact .name (hnames _ hname) hp h
  | parent hparent hp h => exact .parent hparent hp h

theorem failsFor_of_holdsName {name : String}
    (h : q.holdsName deeper e name = .error f) :
    q.FailsFor deeper e (.relation name) f := by
  unfold holdsName at h
  split at h
  next =>
    cases h
    exact .rule trivial
  next entity he =>
    split at h
    next p hp =>
      exact .name (List.mem_singleton_self name)
        (Schema.permission?_eq_some_iff.mpr ⟨entity, he, hp⟩) h
    next =>
      split at h
      next =>
        cases h
        exact .rule trivial
      next =>
        rcases Outcome.bind_eq_error_iff.mp h with h | ⟨direct, -, h⟩
        · exact .read (failsToRead_of_holdsDirectly h)
        · cases direct with
          | true => exact absurd h Outcome.pure_ne_error
          | false => exact .read (failsToRead_of_holdsViaUserset h)

theorem failsFor_of_holdsMember {relation permission : String}
    (h : q.holdsMember deeper e relation permission = .error f) :
    q.FailsFor deeper e (.member relation permission) f := by
  unfold holdsMember at h
  split at h
  next =>
    cases h
    exact .rule trivial
  next entity he =>
    split at h
    next =>
      cases h
      exact .rule trivial
    next r hr =>
      rcases Outcome.bind_eq_error_iff.mp h with h | ⟨parents, hparents, h⟩
      · exact .read (failsToRead_of_parents h)
      · obtain ⟨parent, hparent, h⟩ := Outcome.exists_of_anyM_eq_error h
        unfold holdsOnParent at h
        split at h
        next p hp =>
          obtain ⟨g, hg, rfl⟩ := Outcome.mapError_eq_error_iff.mp h
          exact .parent ⟨entity, relation, r, parents, he, hr, hparents,
            hparent⟩ hp hg
        next => exact .read (failsToRead_of_holdsDirectly h)

theorem failsFor_of_satisfies {name expression : String}
    {rule : PermissionRule} (h : q.satisfies e name expression = .error f) :
    q.FailsFor deeper e rule f := by
  rcases Outcome.bind_eq_error_iff.mp h with h | ⟨resource, -, h⟩
  · exact .read (Or.inr ⟨_, h⟩)
  rcases Outcome.bind_eq_error_iff.mp h with h | ⟨subject, -, h⟩
  · exact .read (Or.inr ⟨_, h⟩)
  obtain ⟨error, -, rfl⟩ := Outcome.mapError_eq_error_iff.mp h
  exact .rule trivial

theorem failsFor_of_satisfiesRule {name : String} {arguments : List String}
    (h : q.satisfiesRule e name arguments = .error f) :
    q.FailsFor deeper e (.call name arguments) f := by
  unfold satisfiesRule at h
  split at h
  · cases h
    exact .rule trivial
  · split at h
    · exact failsFor_of_satisfies h
    · cases h
      exact .rule trivial

/-- **One level of an evaluation fails for one of four reasons.** -/
theorem failsFor_of_step {rule : PermissionRule}
    (h : q.step deeper e rule = .error f) : q.FailsFor deeper e rule f := by
  induction rule with
  | relation name => exact failsFor_of_holdsName h
  | binary op left right ihl ihr =>
    have hleft : q.step deeper e left = .error f →
        q.FailsFor deeper e (.binary op left right) f := fun h =>
      (ihl h).mono fun _ => List.mem_append_left right.names
    have hright : q.step deeper e right = .error f →
        q.FailsFor deeper e (.binary op left right) f := fun h =>
      (ihr h).mono fun _ => List.mem_append_right left.names
    cases op with
    | or =>
      rcases Outcome.bind_eq_error_iff.mp h with h | ⟨l, -, h⟩
      · exact hleft h
      · cases l with
        | true => exact absurd h Outcome.pure_ne_error
        | false => exact hright h
    | and =>
      rcases Outcome.bind_eq_error_iff.mp h with h | ⟨l, -, h⟩
      · exact hleft h
      · cases l with
        | true => exact hright h
        | false => exact absurd h Outcome.pure_ne_error
  | incomplete op left =>
    cases h
    exact .rule trivial
  | not operand ih =>
    exact (ih (Outcome.map_eq_error_iff.mp h)).mono fun _ hn => hn
  | notWith operand spare ih =>
    exact (ih (Outcome.map_eq_error_iff.mp h)).mono fun _ hn => hn
  | member relation permission => exact failsFor_of_holdsMember h
  | inline expression => exact failsFor_of_satisfies h
  | call name arguments => exact failsFor_of_satisfiesRule h

end Evaluation

/-! ## Time -/

/-- **Whether no read takes too long.** -/
def Resolver.InTime (r : Resolver) : Prop :=
  ∀ milliseconds, ¬ r.FailsToRead (.timeout milliseconds)

/-- Where a failure was met does not make it one of time. -/
theorem Failure.eq_timeout_of_located {f : Failure} {t i p : String}
    {milliseconds : Nat} (h : f.located t i p = timeout milliseconds) :
    f = timeout milliseconds := by
  cases f with
  | timeout _ => exact h
  | _ => cases h

theorem Failure.eq_timeout_of_within {f : Failure} {t i p : String}
    {milliseconds : Nat} (h : f.within t i p = timeout milliseconds) :
    f = timeout milliseconds := by
  unfold within at h
  split at h
  · cases h
  · exact eq_timeout_of_located h

/-- **An evaluation takes too long only if a read does.** -/
theorem Evaluation.evaluate_ne_timeout {q : Evaluation}
    (hr : q.resolver.InTime) (levels : Nat) (e : EntityRef)
    (rule : PermissionRule) (milliseconds : Nat) :
    q.evaluate levels e rule ≠ .error (.timeout milliseconds) := by
  induction levels generalizing e rule with
  | zero =>
    intro h
    have hdeep := q.resolver.isTooDeep_tooDeep
    rw [Except.error.inj h] at hdeep
    simp [Failure.IsTooDeep, Failure.rootCause] at hdeep
  | succ levels ih =>
    intro hstep
    generalize hf : Failure.timeout milliseconds = f at hstep
    cases failsFor_of_step hstep with
    | rule h =>
      subst hf
      exact h
    | read h =>
      subst hf
      exact hr milliseconds h
    | name _ _ h =>
      subst hf
      exact ih _ _ h
    | parent _ _ h =>
      rw [Failure.eq_timeout_of_within hf.symm] at h
      exact ih _ _ h

/-- So does a check. -/
theorem Resolver.checkInSchema_ne_timeout {r : Resolver} (hr : r.InTime)
    (schema : Schema) (request : CheckRequest) (milliseconds : Nat) :
    r.checkInSchema schema request ≠ .error (.timeout milliseconds) := by
  intro h
  rcases Outcome.bind_eq_error_iff.mp h with h | ⟨p, -, h⟩
  · cases isNotFound_of_findPermission h
  · obtain ⟨f, hf, heq⟩ := Outcome.mapError_eq_error_iff.mp h
    rw [Failure.eq_timeout_of_located heq, Evaluation.evaluateAt_eq] at hf
    exact Evaluation.evaluate_ne_timeout
      (q := r.evaluation schema request) hr _ _ _ milliseconds hf

end Entitlement
