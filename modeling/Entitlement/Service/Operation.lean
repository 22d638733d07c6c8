import Entitlement.Service.Basic

/-!
# Operations of the service

Everything that the service does, as data: an `Operation` is applied to a
service and gives an `Answer` and the service that goes on. An operation
that fails answers its error, and the store stays as it was.
-/

namespace Entitlement

/-- **What can be asked of the service.** A version that is written is
given its name and its time. -/
inductive Operation
  | writeSchema (tenant source version : String) (createdAt : Int)
  | readSchema (tenant : String) (version : Option String)
  | schemaVersions (tenant : String)
  | writeRelationships (tenant : String) (tuples : List Tuple)
  | deleteRelationships (tenant : String) (filter : TupleFilter)
  | writeAttributes (tenant : String)
      (attributes : List (Attribute AttributeValue))
  | deleteAttributes (tenant : String) (entity : EntityRef)
      (name : Option String)
  | check (request : CheckRequest)
  | checkMultiple (request : CheckRequest) (permissions : List String)
  | subjectPermission (request : SubjectPermissionRequest)
  | expand (request : ExpandRequest)
  | lookupEntity (request : LookupEntityRequest)
  | lookupSubject (request : LookupSubjectRequest)

/-- The tenant that an operation is for. -/
def Operation.tenant : Operation → String
  | writeSchema tenant .. => tenant
  | readSchema tenant _ => tenant
  | schemaVersions tenant => tenant
  | writeRelationships tenant _ => tenant
  | deleteRelationships tenant _ => tenant
  | writeAttributes tenant _ => tenant
  | deleteAttributes tenant .. => tenant
  | check request => request.tenant
  | checkMultiple request _ => request.tenant
  | subjectPermission request => request.tenant
  | expand request => request.tenant
  | lookupEntity request => request.tenant
  | lookupSubject request => request.tenant

/-- **What the service answers.** -/
inductive Answer
  | version (name : String)
  | schema (schema : Schema)
  | versions (names : List String)
  | done
  | removed (count : Nat)
  | allowed (allowed : Bool)
  | permissions (allowed : Table Bool)
  | tree (tree : ExpandTree)
  | page (page : Page)
  | error (error : ServiceError)

namespace Service

variable {engine : ExpressionEngine}

/-- The answer to a query over a schema, which the service keeps ready. -/
def answer {α : Type} (s : Service engine) (tenant : String)
    (version : Option String) (query : Resolver → Except Failure α)
    (shown : α → Answer) : Answer × Service engine :=
  let s := s.remember tenant version
  match query (s.resolver tenant) with
  | .ok a => (shown a, s)
  | .error f => (.error (.failure f), s)

/-- The answer to a change, and the service after it. -/
def change {α : Type} (s : Service engine)
    (result : Except ServiceError (α × Service engine))
    (shown : α → Answer) : Answer × Service engine :=
  match result with
  | .ok (a, s) => (shown a, s)
  | .error e => (.error e, s)

/-- **One operation.** -/
def apply (s : Service engine) : Operation → Answer × Service engine
  | .writeSchema tenant source version createdAt =>
    s.change ((s.writeSchema tenant source version createdAt).map ((), ·))
      fun _ => .version version
  | .readSchema tenant version =>
    let s := s.remember tenant version
    match s.readSchema tenant version with
    | .ok schema => (.schema schema, s)
    | .error e => (.error e, s)
  | .schemaVersions tenant =>
    match s.schemaVersions tenant with
    | .ok names => (.versions names, s)
    | .error e => (.error e, s)
  | .writeRelationships tenant tuples =>
    let s := s.remember tenant none
    s.change ((s.writeRelationships tenant tuples).map ((), ·))
      fun _ => .done
  | .deleteRelationships tenant filter =>
    s.change (s.deleteRelationships tenant filter) .removed
  | .writeAttributes tenant attributes =>
    let s := s.remember tenant none
    s.change ((s.writeAttributes tenant attributes).map ((), ·))
      fun _ => .done
  | .deleteAttributes tenant entity name =>
    s.change (s.deleteAttributes tenant entity name) .removed
  | .check request =>
    s.answer request.tenant request.version (·.check request) .allowed
  | .checkMultiple request permissions =>
    s.answer request.tenant request.version
      (·.checkMultiple request permissions) .permissions
  | .subjectPermission request =>
    s.answer request.tenant request.version (·.subjectPermission request)
      .permissions
  | .expand request =>
    s.answer request.tenant request.version (·.expand request) .tree
  | .lookupEntity request =>
    s.answer request.tenant request.version (·.lookupEntity request) .page
  | .lookupSubject request =>
    s.answer request.tenant request.version (·.lookupSubject request) .page

/-- **The answers to operations in a row**, and the service after them. -/
def run (s : Service engine) : List Operation → List Answer × Service engine
  | [] => ([], s)
  | operation :: rest =>
    let (answer, s) := s.apply operation
    let (answers, s) := s.run rest
    (answer :: answers, s)

end Service

end Entitlement
