import Entitlement.Proofs.Access.Descent
import Entitlement.Proofs.Schema.References

/-!
# What a check can fail with

A check of a permission that exists, in a schema whose references resolve,
never meets a name that is not declared. What is left to fail is the run
itself: the levels are used up, an expression has no truth value for the
attributes that it meets, or a read of the store fails or takes too long.
`Failure.IsOfRun` says this of a failure, whatever it is wrapped in.

`Evaluation.isOfRun_of_step` is the reason. A rule is evaluated at an
entity whose type declares it, every reference of the rule resolves there,
and the only rules that a step leads to are those of permissions that were
just looked up, so the same holds one level deeper. Nothing is asked of
the tuples: a parent has one of the types that its relation admits, and
where such a type does not have the permission, tuples answer instead.
-/

namespace Entitlement

namespace Failure

/-- Whether a failure is one of reading: the store failed, or it took too
long. -/
def IsOfReading (f : Failure) : Prop :=
  (∃ error, f = .storage error) ∨ ∃ milliseconds, f = .timeout milliseconds

/-- **Whether a failure comes from the run of an evaluation** and not from
what the schema or the query names: as its root cause, the depth was
exceeded or overflowed, an expression that compiles has no truth value, or a
read failed. -/
def IsOfRun (f : Failure) : Prop :=
  match f.rootCause with
  | depthExceeded _ => True
  | depthOverflow => True
  | expression _ error => ∀ text, error ≠ .notCompiled text
  | storage _ => True
  | timeout _ => True
  | _ => False

theorem IsOfReading.isOfRun {f : Failure} (h : f.IsOfReading) : f.IsOfRun := by
  rcases h with ⟨error, rfl⟩ | ⟨milliseconds, rfl⟩
  · exact trivial
  · exact trivial

theorem IsTooDeep.isOfRun {f : Failure} (h : f.IsTooDeep) : f.IsOfRun := by
  unfold IsOfRun
  rcases h with ⟨limit, h⟩ | h
  · rw [h]
    exact trivial
  · rw [h]
    exact trivial

/-- Wrapping a failure does not change where it comes from. -/
theorem isOfRun_located {f : Failure} (type id permission : String) :
    (f.located type id permission).IsOfRun ↔ f.IsOfRun := by
  unfold IsOfRun
  rw [rootCause_located]

theorem isOfRun_within {f : Failure} (type id permission : String) :
    (f.within type id permission).IsOfRun ↔ f.IsOfRun := by
  unfold IsOfRun
  rw [rootCause_within]

/-- **A failure of the run does not mean that something is missing.** -/
theorem IsOfRun.isNotFound_eq_false {f : Failure} (h : f.IsOfRun) :
    f.isNotFound = false := by
  unfold IsOfRun at h
  unfold isNotFound
  split at h <;> simp_all

end Failure

/-! ## What a resolver can fail with -/

/-- **Whether a resolver fails as a running system does**: its reads fail
with failures of reading, and an expression that passed the check is
compiled again without a failure. -/
structure Resolver.IsRunning (r : Resolver) (check : ExpressionCheck) :
    Prop where
  tuples : ∀ {filter f}, r.tuples filter = .error f → f.IsOfReading
  attributes : ∀ {e f}, r.attributes e = .error f → f.IsOfReading
  holds : ∀ {text}, check text = none → ∀ {context error},
    r.holds text context = .error error →
      ∀ other, error ≠ .notCompiled other

/-- What a running resolver fails to read, it fails to read as such. -/
theorem Resolver.IsRunning.isOfReading {r : Resolver}
    {check : ExpressionCheck} (hr : r.IsRunning check) {f : Failure}
    (h : r.FailsToRead f) : f.IsOfReading := by
  rcases h with ⟨filter, h⟩ | ⟨e, h⟩
  · exact hr.tuples h
  · exact hr.attributes h

namespace Evaluation

variable {q : Evaluation} {check : ExpressionCheck} {deeper : Deeper}
  {e : EntityRef} {f : Failure}

/-- Whether one level deeper the permissions of the schema fail only in
the run. -/
def FailsOnlyInRun (q : Evaluation) (deeper : Deeper) : Prop :=
  ∀ {e name p f}, q.schema.permission? e.type name = some p →
    deeper e p.rule = .error f → f.IsOfRun

/-- A name that is declared is evaluated without missing anything. -/
theorem isOfRun_of_holdsName (hr : q.resolver.IsRunning check)
    (hd : FailsOnlyInRun q deeper) {entity : EntityType}
    (he : q.schema.entity? e.type = some entity) {name : String}
    (hname : (entity.permission? name).isSome ∨ (entity.relation? name).isSome)
    (h : q.holdsName deeper e name = .error f) : f.IsOfRun := by
  cases hp : entity.permission? name with
  | some p =>
    rw [holdsName_of_permission he hp] at h
    exact hd (Schema.permission?_eq_some_iff.mpr ⟨entity, he, hp⟩) h
  | none =>
    have hsome : (entity.relation? name).isSome := by
      simpa [hp] using hname
    obtain ⟨r, hrel⟩ := Option.isSome_iff_exists.mp hsome
    rw [holdsName_of_relation he hp hrel] at h
    rcases Outcome.bind_eq_error_iff.mp h with h | ⟨direct, -, h⟩
    · exact (hr.isOfReading (failsToRead_of_holdsDirectly h)).isOfRun
    · cases direct with
      | true => exact absurd h Outcome.pure_ne_error
      | false => exact (hr.isOfReading (failsToRead_of_holdsViaUserset h)).isOfRun

/-- A member of a declared relation is evaluated without missing
anything, wherever the relation leads. -/
theorem isOfRun_of_holdsMember (hr : q.resolver.IsRunning check)
    (hd : FailsOnlyInRun q deeper) {entity : EntityType}
    (he : q.schema.entity? e.type = some entity)
    {relation permission : String}
    (hrel : (entity.relation? relation).isSome)
    (h : q.holdsMember deeper e relation permission = .error f) :
    f.IsOfRun := by
  obtain ⟨r, hrel⟩ := Option.isSome_iff_exists.mp hrel
  rw [holdsMember_of_relation he hrel] at h
  rcases Outcome.bind_eq_error_iff.mp h with h | ⟨parents, -, h⟩
  · exact (hr.isOfReading (failsToRead_of_parents h)).isOfRun
  · obtain ⟨parent, -, h⟩ := Outcome.exists_of_anyM_eq_error h
    cases hp : q.schema.permission? parent.type permission with
    | some p =>
      rw [holdsOnParent_of_permission hp] at h
      obtain ⟨g, hg, rfl⟩ := Outcome.mapError_eq_error_iff.mp h
      exact (Failure.isOfRun_within ..).mpr (hd hp hg)
    | none =>
      rw [holdsOnParent_of_none hp] at h
      exact (hr.isOfReading (failsToRead_of_holdsDirectly h)).isOfRun

/-- An expression that passed the check is evaluated or fails in the
run. -/
theorem isOfRun_of_satisfies (hr : q.resolver.IsRunning check)
    {rule expression : String} (hexpr : check expression = none)
    (h : q.satisfies e rule expression = .error f) : f.IsOfRun := by
  rcases Outcome.bind_eq_error_iff.mp h with h | ⟨resource, -, h⟩
  · exact (hr.attributes h).isOfRun
  rcases Outcome.bind_eq_error_iff.mp h with h | ⟨subject, -, h⟩
  · exact (hr.attributes h).isOfRun
  obtain ⟨error, herror, rfl⟩ := Outcome.mapError_eq_error_iff.mp h
  exact hr.holds hexpr herror

/-- **One level of an evaluation fails only in the run**, if the levels
below it do. -/
theorem isOfRun_of_step (hr : q.resolver.IsRunning check)
    (hd : FailsOnlyInRun q deeper) {entity : EntityType}
    (he : q.schema.entity? e.type = some entity) {rule : PermissionRule}
    (hrule : rule.Resolves check q.schema entity)
    (h : q.step deeper e rule = .error f) : f.IsOfRun := by
  induction rule with
  | relation name => exact isOfRun_of_holdsName hr hd he hrule h
  | binary op left right ihl ihr =>
    cases op with
    | or =>
      rcases Outcome.bind_eq_error_iff.mp h with h | ⟨l, -, h⟩
      · exact ihl hrule.1 h
      · cases l with
        | true => exact absurd h Outcome.pure_ne_error
        | false => exact ihr hrule.2 h
    | and =>
      rcases Outcome.bind_eq_error_iff.mp h with h | ⟨l, -, h⟩
      · exact ihl hrule.1 h
      · cases l with
        | true => exact ihr hrule.2 h
        | false => exact absurd h Outcome.pure_ne_error
  | incomplete op left => exact hrule.elim
  | not operand ih => exact ih hrule (Outcome.map_eq_error_iff.mp h)
  | notWith operand spare ih => exact ih hrule (Outcome.map_eq_error_iff.mp h)
  | member relation permission =>
    exact isOfRun_of_holdsMember hr hd he hrule h
  | inline expression => exact isOfRun_of_satisfies hr hrule h
  | call name arguments =>
    obtain ⟨rule, hfound, hlen, hbody⟩ := hrule
    have h : q.satisfiesRule e name arguments = .error f := h
    rw [satisfiesRule_of_rule hfound hlen] at h
    exact isOfRun_of_satisfies hr hbody h

/-- **A permission fails only in the run**, with any number of levels, if
the references of the schema resolve. -/
theorem isOfRun_of_evaluate (hr : q.resolver.IsRunning check)
    (hs : q.schema.Resolves check) {levels : Nat} {name : String}
    {p : Permission} (hp : q.schema.permission? e.type name = some p)
    (h : q.evaluate levels e p.rule = .error f) : f.IsOfRun := by
  induction levels generalizing e name p f with
  | zero =>
    cases h
    exact q.resolver.isTooDeep_tooDeep.isOfRun
  | succ levels ih =>
    obtain ⟨entity, he, hperm⟩ := Schema.permission?_eq_some_iff.mp hp
    exact isOfRun_of_step hr (fun hp h => ih hp h) he (hs.rule he hperm) h

end Evaluation

namespace Resolver

variable {r : Resolver} {request : CheckRequest} {schema : Schema}
  {f : Failure}

/-- **A check of a permission that exists fails only in the run.** -/
theorem isOfRun_of_checkInSchema {check : ExpressionCheck}
    (hr : r.IsRunning check) (hs : schema.Resolves check) {p : Permission}
    (hp : schema.permission? request.entity.type request.permission = some p)
    (h : r.checkInSchema schema request = .error f) : f.IsOfRun := by
  rw [checkInSchema_of_permission hp] at h
  obtain ⟨g, hg, rfl⟩ := Outcome.mapError_eq_error_iff.mp h
  exact (Failure.isOfRun_located ..).mpr
    (Evaluation.isOfRun_of_evaluate (q := r.evaluation schema request) hr hs
      hp hg)

end Resolver

end Entitlement
