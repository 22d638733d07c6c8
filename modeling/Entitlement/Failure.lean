import Entitlement.Condition.Basic
import Entitlement.Schema.SyntaxError
import Entitlement.Schema.Validation
import Entitlement.Store.Error

/-!
# Failures

What can go wrong when a schema is compiled or a permission query is
answered. A failure while a permission is evaluated is wrapped in
`evaluating`, which says for which entity and permission; `rootCause` is
what is left without these wrappings. A timeout is no failure of one
permission but of the whole query, and is never wrapped.

One of them is no answer at all: where the count of the depth leaves its 32
bits, the sum has no value, and nothing comes back from the run. It is
carried like a failure of the permission at which it is met
(`Failure.depthOverflow`).
-/

namespace Entitlement

/-- **Why there is no schema or no answer.** -/
inductive Failure
  | schemaSyntax (errors : List SyntaxError)
  | schemaInvalid (problems : List SchemaProblem)
  /-- An attribute has no type that exists. -/
  | attributeType (entity attr typeName : String)
  | schemaNotFound (tenant : String) (version : Option String)
  | entityNotFound (entityType : String)
  | permissionNotFound (entityType permission : String)
  | relationNotFound (entityType relation : String)
  | ruleNotFound (rule : String)
  | arityMismatch (rule : String) (expected actual : Nat)
  | depthExceeded (limit : Nat)
  /-- The next depth does not fit the 32 bits of the count. -/
  | depthOverflow
  /-- An expression has no truth value. -/
  | expression (rule : String) (error : ConditionError)
  /-- A connective lacks its right operand. -/
  | missingOperand (op : Connective)
  /-- A rule of this sort has no expansion. -/
  | unsupportedRule (kind : String)
  /-- A field of a request is blank. -/
  | blankField (field : String)
  | timeout (milliseconds : Nat)
  | storage (error : StoreError)
  /-- A failure met while a permission of an entity was evaluated. -/
  | evaluating (entityType entityId permission : String) (source : Failure)
  deriving DecidableEq, Repr

namespace Failure

/-- The wording of a failure. -/
def message : Failure → String
  | schemaSyntax errors => s!"schema parse error: {SyntaxError.report errors}"
  | schemaInvalid problems =>
    s!"schema validation error: {SchemaProblem.report problems}"
  | attributeType entity attr typeName =>
    s!"schema validation error: attribute '{entity}.{attr}' has invalid " ++
      s!"type '{typeName}'"
  | schemaNotFound tenant version =>
    s!"schema not found for tenant '{tenant}'" ++ renderVersion version
  | entityNotFound entityType => s!"entity type not found: {entityType}"
  | permissionNotFound entityType permission =>
    s!"permission '{permission}' not found on entity '{entityType}'"
  | relationNotFound entityType relation =>
    s!"relation '{relation}' not found on entity '{entityType}'"
  | ruleNotFound rule => s!"rule not found: {rule}"
  | arityMismatch rule expected actual =>
    s!"rule '{rule}' expects {expected} argument(s), got {actual}"
  | depthExceeded limit => s!"depth limit exceeded (max: {limit})"
  | depthOverflow => "attempt to add with overflow"
  | expression rule error => s!"expression error in {rule}: {error.message}"
  | missingOperand op =>
    s!"malformed rule: '{op.spelling}' rule is missing its right operand"
  | unsupportedRule kind => s!"unsupported rule type: {kind}"
  | blankField field => s!"invalid request: {field} cannot be empty"
  | timeout milliseconds => s!"timeout after {milliseconds}ms"
  | storage error => s!"storage error: {error.message}"
  | evaluating entityType entityId permission source =>
    s!"evaluating {entityType}:{entityId}#{permission}: {source.message}"

/-- **The failure inside all wrappings.** -/
def rootCause : Failure → Failure
  | evaluating _ _ _ source => source.rootCause
  | failure => failure

/-- **Whether a failure means that something asked for does not exist.** -/
def isNotFound (f : Failure) : Bool :=
  match f.rootCause with
  | schemaNotFound .. | entityNotFound _ | permissionNotFound ..
  | relationNotFound .. | ruleNotFound _ => true
  | _ => false

/-- A failure of the store as a failure of a query. -/
def ofStoreError : StoreError → Failure
  | .schemaNotFound tenant version => schemaNotFound tenant version
  | error => storage error

/-- **A failure met while a permission of an entity was evaluated.** -/
def located (entityType entityId permission : String) : Failure → Failure
  | timeout milliseconds => timeout milliseconds
  | failure => evaluating entityType entityId permission failure

/-- A failure met while a permission was evaluated for another one; one
that says already where it was met stays as it is. -/
def within (entityType entityId permission : String) : Failure → Failure
  | evaluating t i p source => evaluating t i p source
  | failure => failure.located entityType entityId permission

@[simp] theorem rootCause_located (t i p : String) (f : Failure) :
    (f.located t i p).rootCause = f.rootCause := by
  cases f <;> rfl

@[simp] theorem rootCause_within (t i p : String) (f : Failure) :
    (f.within t i p).rootCause = f.rootCause := by
  cases f <;> rfl

/-- **A failure read as a denial**, where many permissions are checked at
once. A timeout stays a failure. -/
def deny {α : Type} (denial : α) : Except Failure α → Except Failure α
  | .error (timeout milliseconds) => .error (timeout milliseconds)
  | .error _ => .ok denial
  | .ok answer => .ok answer

end Failure

end Entitlement
