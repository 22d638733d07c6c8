import Entitlement.Access.Evaluate

/-!
# Checks

Whether a subject holds a permission. A single check fails with what went
wrong, wrapped in the entity and permission it was asked about. A check of
many permissions at once fails only if there is no schema: a permission
that cannot be checked counts as not held.
-/

namespace Entitlement

namespace Resolver

/-- The evaluation of a check in a schema. -/
def evaluation (r : Resolver) (schema : Schema) (request : CheckRequest) :
    Evaluation where
  resolver := r
  schema := schema
  subject := request.subject
  contextual := request.contextual
  context := request.context

/-- **A check in a schema that was found already.** -/
def checkInSchema (r : Resolver) (schema : Schema) (request : CheckRequest) :
    Except Failure Bool := do
  let entity := request.entity
  let permission ← findPermission schema entity.type request.permission
  ((r.evaluation schema request).evaluateAt 0 entity permission.rule).mapError
    (Failure.located entity.type entity.id request.permission)

/-- **Whether the subject holds the permission.** -/
def check (r : Resolver) (request : CheckRequest) : Except Failure Bool := do
  request.validate
  r.checkInSchema (← r.resolveSchema request.version) request

/-- The answer for one of many permissions, where a failure is a denial. -/
def checkOne (r : Resolver) (schema : Schema) (request : CheckRequest) :
    Except Failure Bool :=
  Failure.deny false do
    request.validate
    r.checkInSchema schema request

/-- The answers for many permissions, in the order of their names. -/
def checkEach (r : Resolver) (schema : Schema)
    (request : String → CheckRequest) (permissions : List String) :
    Except Failure (Table Bool) := do
  let answers ← permissions.mapM fun permission => do
    pure (permission, ← r.checkOne schema (request permission))
  pure (Table.ofPairs answers)

/-- **Which of some permissions the subject holds.** -/
def checkMultiple (r : Resolver) (request : CheckRequest)
    (permissions : List String) : Except Failure (Table Bool) := do
  let schema ← r.resolveSchema request.version
  r.checkEach schema (fun permission => { request with permission }) permissions

/-- **Which permissions of the entity the subject holds.** -/
def subjectPermission (r : Resolver) (request : SubjectPermissionRequest) :
    Except Failure (Table Bool) := do
  request.validate
  let schema ← r.resolveSchema request.version
  match schema.entity? request.entity.type with
  | none => throw (.entityNotFound request.entity.type)
  | some entity =>
    r.checkEach schema request.toCheck (entity.permissions.map Permission.name)

end Resolver

end Entitlement
