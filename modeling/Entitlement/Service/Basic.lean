import Entitlement.Access.Expand
import Entitlement.Access.Lookup
import Entitlement.Condition.Cache
import Entitlement.Service.Error
import Entitlement.Service.SchemaCache
import Entitlement.Settings.Load
import Entitlement.Store.Reader

/-!
# The service

A `Service` is a store together with the settings and what is kept ready
to answer fast: compiled schemas and compiled expressions. It writes
schemas that compile, tuples and attributes that the latest schema admits,
and answers permission queries from what was written.

What is kept ready never shows in an answer. `Service.remember` is the
only function that adds to it, and `Service.forget` may drop any of it.
-/

namespace Entitlement

/-- The expressions in a rule. -/
def PermissionRule.expressions : PermissionRule → List String
  | binary _ left right => left.expressions ++ right.expressions
  | not operand => operand.expressions
  | inline expression => [expression]
  | _ => []

/-- **The expressions of a schema**: the bodies of its rules and those in
its permissions. -/
def Schema.expressions (s : Schema) : List String :=
  s.rules.map Rule.body ++ s.entities.flatMap fun e =>
    e.permissions.flatMap fun p => p.rule.expressions

/-- **A store with settings**, with expressions in the language of
`engine`. -/
structure Service (engine : ExpressionEngine) where
  settings : Settings := {}
  store : Store := {}
  /-- How reads of the store are disturbed. -/
  faults : ReadFaults := {}
  /-- The schemas that are kept. -/
  schemas : SchemaCache := {}
  /-- The expressions that are kept. -/
  programs : ProgramCache engine := {}

namespace Service

variable {engine : ExpressionEngine}

/-! ## Reading -/

/-- The service over an empty store, if the settings have no fault. -/
def ofSettings (settings : Settings) :
    Except SettingsError (Service engine) := do
  let settings ← settings.validated
  pure { settings }

/-- What the queries of a tenant are answered from, if they may take
`timeout` milliseconds. -/
def resolverWithin (s : Service engine) (timeout : Option Nat)
    (tenant : String) : Resolver where
  maxDepth := s.settings.engine.maxDepth
  defaultPageSize := s.settings.engine.defaultPageSize.toNat
  schema := s.schemas.read engine.refusal? s.store tenant
  tuples := s.store.queryTuples s.faults timeout tenant
  attributes := s.store.queryAttributes s.faults tenant
  holds := s.programs.evaluate

/-- **What the queries of a tenant are answered from.** -/
def resolver (s : Service engine) (tenant : String) : Resolver :=
  s.resolverWithin s.settings.engine.timeout.toNat tenant

/-- Refuses a blank tenant. -/
def requireTenant (tenant : String) : Except ServiceError Unit :=
  (requireFields [("tenant_id", tenant)]).mapError .failure

/-- **A schema of a tenant**, the latest if no version is named. -/
def readSchema (s : Service engine) (tenant : String)
    (version : Option String) : Except ServiceError Schema := do
  requireTenant tenant
  ((s.resolver tenant).resolveSchema version).mapError .failure

/-- **The versions of the schema of a tenant**, newest first. -/
def schemaVersions (s : Service engine) (tenant : String) :
    Except ServiceError (List String) := do
  requireTenant tenant
  pure (s.store.schemaVersions tenant)

/-! ## Keeping ready -/

/-- **Keeps ready what a query over a schema uses**: the schema, if the
settings say so, and its expressions. -/
def remember (s : Service engine) (tenant : String)
    (version : Option String) : Service engine :=
  match (s.resolver tenant).resolveSchema version with
  | .error _ => s
  | .ok schema =>
    let cache := s.settings.schemaCache
    let schemas :=
      if cache.enabled ∧ (s.schemas.find? tenant schema.version).isNone then
        s.schemas.insert cache.capacity.toNat tenant schema.version schema
      else s.schemas
    { s with schemas, programs := s.programs.warm schema.expressions }

/-- Drops the schemas that do not pass, and all expressions if so
asked. -/
def forget (s : Service engine) (keeps : String × String → Bool)
    (clearPrograms : Bool) : Service engine :=
  { s with
    schemas := s.schemas.evict keeps
    programs := if clearPrograms then .empty else s.programs }

/-! ## Writing -/

/-- **Writes a schema** as a new version, whose name and time are given;
it has to compile. -/
def writeSchema (s : Service engine) (tenant source version : String)
    (createdAt : Int) : Except ServiceError (Service engine) := do
  requireTenant tenant
  let _ ← (compileSchema engine.refusal? tenant version source
    createdAt).mapError ServiceError.failure
  let store ← (s.store.writeSchema tenant
    { version, source, createdAt }).mapError .store
  pure { s with store }

/-- Refuses a tuple that a schema does not admit. -/
def checkRelationship (schema : Schema) (t : Tuple) :
    Except ServiceError Unit :=
  match schema.relationshipFault? t with
  | none => .ok ()
  | some fault => .error (.invalidRelationship t fault)

/-- Refuses an attribute that a schema does not admit. -/
def checkAttribute (schema : Schema) (a : Attribute AttributeValue) :
    Except ServiceError Unit :=
  match schema.attributeFault? a with
  | none => .ok ()
  | some fault => .error (.invalidAttribute ⟨a.entityType, a.entityId⟩ a.name fault)

/-- **Writes tuples** that the latest schema admits, all of them or
none. -/
def writeRelationships (s : Service engine) (tenant : String)
    (tuples : List Tuple) : Except ServiceError (Service engine) := do
  let schema ← s.readSchema tenant none
  tuples.forM (checkRelationship schema)
  let store ← (s.store.writeTuples tenant
    (tuples.map Tuple.normalize)).mapError .store
  pure { s with store }

/-- **Deletes the tuples that a filter admits** and counts them. -/
def deleteRelationships (s : Service engine) (tenant : String)
    (filter : TupleFilter) : Except ServiceError (Nat × Service engine) := do
  requireTenant tenant
  let (removed, store) ← (s.store.deleteTuples tenant filter).mapError .store
  pure (removed, { s with store })

/-- **Writes attributes** that the latest schema admits, all of them or
none. -/
def writeAttributes (s : Service engine) (tenant : String)
    (attributes : List (Attribute AttributeValue)) :
    Except ServiceError (Service engine) := do
  let schema ← s.readSchema tenant none
  attributes.forM (checkAttribute schema)
  let store ← (s.store.writeAttributes tenant
    (attributes.map Attribute.toJson)).mapError .store
  pure { s with store }

/-- **Deletes an attribute of an entity**, or all of them if none is named,
and counts them. -/
def deleteAttributes (s : Service engine) (tenant : String)
    (entity : EntityRef) (name : Option String) :
    Except ServiceError (Nat × Service engine) := do
  requireTenant tenant
  let (removed, store) := s.store.deleteAttributes tenant entity name
  pure (removed, { s with store })

end Service

end Entitlement
