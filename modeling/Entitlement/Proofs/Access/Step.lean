import Entitlement.Proofs.Access.Levels
import Entitlement.Proofs.Outcome
import Entitlement.Proofs.Schema.Reach

/-!
# One level of an evaluation, case by case

An evaluation and an expansion look up what a rule refers to before they
do anything with it. The equations here say what is done once the look-ups
are known, so that a proof that knows them goes on with what is done.
-/

namespace Entitlement

/-- The entity type and the permission behind a permission of a schema. -/
theorem Schema.permission?_eq_some_iff {s : Schema} {type name : String}
    {p : Permission} :
    s.permission? type name = some p ↔
      ∃ entity, s.entity? type = some entity ∧
        entity.permission? name = some p := by
  rw [Schema.permission?, Option.bind_eq_some_iff]

/-- On a declared entity type, what is no permission there is no
permission. -/
theorem Schema.permission?_of_entity {s : Schema} {type : String}
    {entity : EntityType} (he : s.entity? type = some entity)
    (name : String) : s.permission? type name = entity.permission? name := by
  rw [Schema.permission?, he, Option.bind_some]

namespace Failure

/-- A failure is a denial, so nothing but a permission that is held is
allowed. -/
theorem deny_eq_ok_true_iff {x : Except Failure Bool} :
    deny false x = .ok true ↔ x = .ok true := by
  unfold deny
  split <;> simp

/-- Only a failure of time is left. -/
theorem exists_of_deny_eq_error {x : Except Failure Bool} {f : Failure}
    (h : deny false x = .error f) : ∃ milliseconds, f = timeout milliseconds := by
  unfold deny at h
  split at h
  next milliseconds => exact ⟨milliseconds, (Except.error.inj h).symm⟩
  next => cases h
  next => cases h

/-- A failure that is not one of time counts as a denial. -/
theorem exists_deny {x : Except Failure Bool}
    (h : ∀ milliseconds, x ≠ .error (.timeout milliseconds)) :
    ∃ b, deny false x = .ok b := by
  unfold deny
  split
  next milliseconds => exact absurd rfl (h milliseconds)
  next => exact ⟨false, rfl⟩
  next b => exact ⟨b, rfl⟩

end Failure

namespace Evaluation

variable {q : Evaluation} {deeper : Deeper} {e : EntityRef}
  {entity : EntityType}

/-- A name of a permission is evaluated one level deeper. -/
theorem holdsName_of_permission {name : String} {p : Permission}
    (he : q.schema.entity? e.type = some entity)
    (hp : entity.permission? name = some p) :
    q.holdsName deeper e name = deeper e p.rule := by
  simp only [holdsName, he, hp]

/-- A name of a relation is looked for among the tuples. -/
theorem holdsName_of_relation {name : String} {r : Relation}
    (he : q.schema.entity? e.type = some entity)
    (hp : entity.permission? name = none)
    (hr : entity.relation? name = some r) :
    q.holdsName deeper e name = (do
      if ← q.holdsDirectly e name then pure true
      else q.holdsViaUserset e name) := by
  simp only [holdsName, he, hp, hr]

/-- A member of a declared relation asks the parents. -/
theorem holdsMember_of_relation {relation permission : String} {r : Relation}
    (he : q.schema.entity? e.type = some entity)
    (hr : entity.relation? relation = some r) :
    q.holdsMember deeper e relation permission = (do
      (← q.parents e r).anyM (q.holdsOnParent deeper permission)) := by
  simp only [holdsMember, he, hr]

/-- A parent whose type has the permission is evaluated one level deeper. -/
theorem holdsOnParent_of_permission {permission : String} {parent : EntityRef}
    {p : Permission}
    (hp : q.schema.permission? parent.type permission = some p) :
    q.holdsOnParent deeper permission parent
      = (deeper parent p.rule).mapError
          (Failure.within parent.type parent.id permission) := by
  simp only [holdsOnParent, hp]

/-- A parent whose type lacks it is asked for a relation. -/
theorem holdsOnParent_of_none {permission : String} {parent : EntityRef}
    (hp : q.schema.permission? parent.type permission = none) :
    q.holdsOnParent deeper permission parent
      = q.holdsDirectly parent permission := by
  simp only [holdsOnParent, hp]

/-- A call with as many arguments as parameters is the body of its rule. -/
theorem satisfiesRule_of_rule {name : String} {arguments : List String}
    {rule : Rule} (hr : q.schema.rule? name = some rule)
    (hlen : rule.parameters.length = arguments.length) :
    q.satisfiesRule e name arguments = q.satisfies e name rule.body := by
  simp only [satisfiesRule, hr, if_pos hlen]

end Evaluation

namespace Resolver

variable {r : Resolver} {request : CheckRequest} {schema : Schema}
  {f : Failure}

/-- A permission is found exactly if the schema declares it. -/
theorem findPermission_eq_ok_iff {type name : String} {p : Permission} :
    findPermission schema type name = .ok p ↔
      schema.permission? type name = some p := by
  unfold findPermission Schema.permission?
  cases schema.entity? type with
  | none => simp
  | some entity =>
    rw [Option.bind_some]
    dsimp only
    cases entity.permission? name <;> simp

/-- A permission that is not found is reported as missing. -/
theorem isNotFound_of_findPermission {type name : String}
    (h : findPermission schema type name = .error f) :
    f.isNotFound = true := by
  unfold findPermission at h
  split at h
  · cases h
    rfl
  · split at h
    · cases h
      rfl
    · cases h

/-- A check in a schema that declares the permission evaluates its rule. -/
theorem checkInSchema_of_permission {p : Permission}
    (hp : schema.permission? request.entity.type request.permission = some p) :
    r.checkInSchema schema request
      = ((r.evaluation schema request).evaluate (r.levelsLeft 0)
          request.entity p.rule).mapError (Failure.located
            request.entity.type request.entity.id request.permission) := by
  rw [checkInSchema_eq, findPermission_eq_ok_iff.mpr hp]
  rfl

/-- A check without blank fields is one in the schema that it means. -/
theorem check_of_validate (hv : request.validate = .ok ()) :
    r.check request = (do
      r.checkInSchema (← r.resolveSchema request.version) request) := by
  unfold check
  rw [hv]
  rfl

/-- So it is in this schema if it is found. -/
theorem check_of_schema (hv : request.validate = .ok ())
    (hs : r.resolveSchema request.version = .ok schema) :
    r.check request = r.checkInSchema schema request := by
  rw [check_of_validate hv, hs]
  rfl

/-- An expansion in a schema that declares the permission expands its
rule. -/
theorem expand_of_permission {request : ExpandRequest} {p : Permission}
    (hv : request.validate = .ok ())
    (hs : r.resolveSchema request.version = .ok schema)
    (hp : schema.permission? request.entity.type request.permission = some p) :
    r.expand request
      = Expansion.expand ⟨r, schema⟩ (r.levelsLeft 0) request.entity
          p.rule := by
  rw [expand_eq, hv, hs]
  show (findPermission schema request.entity.type request.permission >>= _)
    = _
  rw [findPermission_eq_ok_iff.mpr hp]
  rfl

end Resolver

end Entitlement
