import Entitlement.Proofs.Access.Levels
import Entitlement.Access.Lookup

/-!
# The same answers with other schemas

A query asks for a schema once, by the version that it means, and goes on
with the schema that it was given. So its answer depends on no other version:
a resolver that reads other schemas, but the same one under the version of
the query, answers the query alike.
-/

namespace Entitlement

/-- The resolver with other schemas to read. -/
def Resolver.withSchemas (r : Resolver)
    (schema : Option String → Except Failure Schema) : Resolver :=
  { r with schema }

variable {schema : Option String → Except Failure Schema}

/-! ## Behind the schema -/

namespace Evaluation

/-- The evaluation over a resolver with other schemas to read. -/
def withSchemas (q : Evaluation)
    (schema : Option String → Except Failure Schema) : Evaluation :=
  { q with resolver := q.resolver.withSchemas schema }

/-- One level of a rule reads no schema. -/
theorem step_withSchemas (q : Evaluation) (deeper : Deeper) (e : EntityRef)
    (rule : PermissionRule) :
    (q.withSchemas schema).step deeper e rule = q.step deeper e rule := by
  induction rule with
  | relation | incomplete | member | inline | call => rfl
  | binary op left right ihl ihr =>
    cases op <;> simp only [step, ihl, ihr]
  | not operand ih => simp only [step, ih]
  | notWith operand _ ih => simp only [step, ih]

/-- **The evaluation of a rule reads no schema.** -/
theorem evaluate_withSchemas (q : Evaluation) (levels : Nat) (e : EntityRef)
    (rule : PermissionRule) :
    (q.withSchemas schema).evaluate levels e rule = q.evaluate levels e rule := by
  induction levels generalizing e rule with
  | zero => rfl
  | succ levels ih =>
    have hdeeper : (q.withSchemas schema).evaluate levels
        = q.evaluate levels := by
      funext e rule
      exact ih e rule
    rw [evaluate, hdeeper, step_withSchemas]
    rfl

end Evaluation

namespace Expansion

/-- The expansion over a resolver with other schemas to read. -/
def withSchemas (x : Expansion)
    (schema : Option String → Except Failure Schema) : Expansion :=
  { x with resolver := x.resolver.withSchemas schema }

theorem step_withSchemas (x : Expansion) (deeper : Deeper) (e : EntityRef)
    (rule : PermissionRule) :
    (x.withSchemas schema).step deeper e rule = x.step deeper e rule := by
  induction rule with
  | relation | member | inline | call => rfl
  | incomplete op left ih => simp only [step, ih]
  | binary op left right ihl ihr => simp only [step, ihl, ihr]
  | not operand ih => simp only [step, ih]
  | notWith operand _ ih => simp only [step, ih]

/-- **The expansion of a rule reads no schema.** -/
theorem expand_withSchemas (x : Expansion) (levels : Nat) (e : EntityRef)
    (rule : PermissionRule) :
    (x.withSchemas schema).expand levels e rule = x.expand levels e rule := by
  induction levels generalizing e rule with
  | zero => rfl
  | succ levels ih =>
    have hdeeper : (x.withSchemas schema).expand levels
        = x.expand levels := by
      funext e rule
      exact ih e rule
    rw [expand, hdeeper, step_withSchemas]
    rfl

end Expansion

namespace Resolver

theorem checkInSchema_withSchemas (r : Resolver) (s : Schema)
    (request : CheckRequest) :
    (r.withSchemas schema).checkInSchema s request
      = r.checkInSchema s request := by
  have heval : ((r.withSchemas schema).evaluation s request).evaluateAt 0
      = (r.evaluation s request).evaluateAt 0 := by
    rw [Evaluation.evaluateAt_eq, Evaluation.evaluateAt_eq]
    funext e rule
    exact (r.evaluation s request).evaluate_withSchemas _ e rule
  unfold checkInSchema
  rw [heval]

theorem checkEach_withSchemas (r : Resolver) (s : Schema)
    (request : String → CheckRequest) (permissions : List String) :
    (r.withSchemas schema).checkEach s request permissions
      = r.checkEach s request permissions := by
  unfold checkEach checkOne
  simp only [checkInSchema_withSchemas]

theorem scan_withSchemas (r : Resolver) (s : Schema) (page : PageRequest)
    (candidates : List String) (toCheck : String → CheckRequest) :
    (r.withSchemas schema).scan s page candidates toCheck
      = r.scan s page candidates toCheck := by
  unfold scan
  simp only [checkInSchema_withSchemas]
  rfl

/-! ## Queries

A resolver with other schemas reads the same one under a version if `h` holds
of the version. -/

variable {r : Resolver}

theorem resolveSchema_withSchemas {version : Option String}
    (h : schema (versionMeant version) = r.resolveSchema version) :
    (r.withSchemas schema).resolveSchema version = r.resolveSchema version :=
  h

theorem check_withSchemas {request : CheckRequest}
    (h : schema (versionMeant request.version)
      = r.resolveSchema request.version) :
    (r.withSchemas schema).check request = r.check request := by
  unfold check
  simp only [resolveSchema_withSchemas h, checkInSchema_withSchemas]

theorem checkMultiple_withSchemas {request : CheckRequest}
    (h : schema (versionMeant request.version)
      = r.resolveSchema request.version) (permissions : List String) :
    (r.withSchemas schema).checkMultiple request permissions
      = r.checkMultiple request permissions := by
  unfold checkMultiple
  simp only [resolveSchema_withSchemas h, checkEach_withSchemas]

theorem subjectPermission_withSchemas {request : SubjectPermissionRequest}
    (h : schema (versionMeant request.version)
      = r.resolveSchema request.version) :
    (r.withSchemas schema).subjectPermission request
      = r.subjectPermission request := by
  unfold subjectPermission
  simp only [resolveSchema_withSchemas h, checkEach_withSchemas]

theorem expand_withSchemas {request : ExpandRequest}
    (h : schema (versionMeant request.version)
      = r.resolveSchema request.version) :
    (r.withSchemas schema).expand request = r.expand request := by
  have hexpand : ∀ s, Expansion.expandAt ⟨r.withSchemas schema, s⟩ 0
      = Expansion.expandAt ⟨r, s⟩ 0 := fun s => by
    rw [Expansion.expandAt_eq, Expansion.expandAt_eq]
    funext e rule
    exact Expansion.expand_withSchemas ⟨r, s⟩ _ e rule
  unfold expand
  simp only [resolveSchema_withSchemas h, hexpand]

theorem lookupEntity_withSchemas {request : LookupEntityRequest}
    (h : schema (versionMeant request.version)
      = r.resolveSchema request.version) :
    (r.withSchemas schema).lookupEntity request = r.lookupEntity request := by
  unfold lookupEntity
  simp only [resolveSchema_withSchemas h, scan_withSchemas]
  rfl

theorem lookupSubject_withSchemas {request : LookupSubjectRequest}
    (h : schema (versionMeant request.version)
      = r.resolveSchema request.version) :
    (r.withSchemas schema).lookupSubject request
      = r.lookupSubject request := by
  unfold lookupSubject
  simp only [resolveSchema_withSchemas h, scan_withSchemas]
  rfl

end Resolver

end Entitlement
