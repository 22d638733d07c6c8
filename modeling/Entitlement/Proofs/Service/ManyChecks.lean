import Entitlement.Proofs.Service.Faults
import Entitlement.Proofs.Service.Queries

/-!
# Many checks at once and one by one

A check of many permissions finds the schema once and then looks at each of
them; the check of one looks at its request first and finds the schema for
itself. A failure of one of many is a denial, that of a single check is the
answer. Still, if no time runs out, the table that the many come to is what
the single checks tell (`Resolver.checkMultiple_tells`), and so is that of
all permissions of a subject (`Resolver.subjectPermission_tells`). The
answers of a service are those of its resolver
(`Service.many_checks_tell_single_checks`).
-/

namespace Entitlement

namespace Resolver

variable {r : Resolver} {permissions : List String} {schema : Schema}

/-- **Where there is a schema there is a table**, and it tells what the
single checks answer. -/
theorem checkMultiple_tells {request : CheckRequest}
    (hs : r.resolveSchema request.version = .ok schema)
    (htime : ∀ milliseconds,
      r.checkMultiple request permissions ≠ .error (.timeout milliseconds)) :
    ∃ table, r.checkMultiple request permissions = .ok table ∧
      table.Tells permissions fun permission =>
        r.check { request with permission } = .ok true := by
  have heq : r.checkMultiple request permissions
      = r.checkEach schema (fun permission => { request with permission })
          permissions := by
    unfold checkMultiple
    rw [hs]
    rfl
  rw [heq] at htime ⊢
  exact exists_tells hs (fun _ => rfl) htime

/-- **Nothing but the schema makes many checks fail.** -/
theorem checkMultiple_eq_error_iff {request : CheckRequest}
    (htime : ∀ milliseconds,
      r.checkMultiple request permissions ≠ .error (.timeout milliseconds))
    {f : Failure} :
    r.checkMultiple request permissions = .error f ↔
      r.resolveSchema request.version = .error f := by
  cases hs : r.resolveSchema request.version with
  | error f' => simp [checkMultiple, hs, bind, Except.bind]
  | ok schema =>
    obtain ⟨table, htable, -⟩ := checkMultiple_tells hs htime
    simp [htable]

/-- **So it is with all permissions of a subject** on an entity type that is
declared. -/
theorem subjectPermission_tells {request : SubjectPermissionRequest}
    {entity : EntityType} (hv : request.validate = .ok ())
    (hs : r.resolveSchema request.version = .ok schema)
    (he : schema.entity? request.entity.type = some entity)
    (htime : ∀ milliseconds,
      r.subjectPermission request ≠ .error (.timeout milliseconds)) :
    ∃ table, r.subjectPermission request = .ok table ∧
      table.Tells (entity.permissions.map Permission.name) fun permission =>
        r.check (request.toCheck permission) = .ok true := by
  have heq : r.subjectPermission request
      = r.checkEach schema request.toCheck
          (entity.permissions.map Permission.name) := by
    unfold subjectPermission
    simp only [hv, hs, he, bind, Except.bind]
  rw [heq] at htime ⊢
  exact exists_tells hs (fun _ => rfl) htime

end Resolver

/-! ## Answers -/

/-- Whether the time did not run out before an answer was found. -/
def Answer.InTime (answer : Answer) : Prop :=
  ∀ milliseconds, answer ≠ .error (.failure (.timeout milliseconds))

/-- **Whether many permissions are answered for as single ones are**, by
someone who answers queries in the schemas that are found. -/
structure AnswersManyAsSingle (answer : Query → Answer)
    (schema : String → Option String → Except Failure Schema) : Prop where
  /-- A check of many permissions fails only for want of a schema. -/
  many_fails : ∀ request permissions,
    (answer (.checkMultiple request permissions)).InTime →
    ∀ f, answer (.checkMultiple request permissions) = .error (.failure f) ↔
      schema request.tenant request.version = .error f
  /-- Otherwise its table tells of the permissions what single checks
  answer. -/
  many_tells : ∀ request permissions,
    (answer (.checkMultiple request permissions)).InTime →
    ∀ found, schema request.tenant request.version = .ok found →
      ∃ table,
        answer (.checkMultiple request permissions) = .permissions table ∧
        table.Tells permissions fun permission =>
          answer (.check { request with permission }) = .allowed true
  /-- The permissions of a subject are those that are declared, and the table
  tells of them what single checks answer. -/
  all_tells : ∀ request : SubjectPermissionRequest,
    request.validate = .ok () →
    (answer (.subjectPermission request)).InTime →
    ∀ found, schema request.tenant request.version = .ok found →
      ∀ entity, found.entity? request.entity.type = some entity →
        ∃ table, answer (.subjectPermission request) = .permissions table ∧
          table.Tells (entity.permissions.map Permission.name)
            fun permission =>
              answer (.check (request.toCheck permission)) = .allowed true

namespace Service

variable {engine : ExpressionEngine} {s : Service engine}

theorem showQuery_permissions_eq_iff {x : Except Failure (Table Bool)}
    {table : Table Bool} :
    showQuery .permissions x = .permissions table ↔ x = .ok table :=
  showQuery_eq_iff (by simp) (by simp)

/-- A failure is shown as an error, and nothing else is. -/
theorem showQuery_permissions_eq_error_iff {x : Except Failure (Table Bool)}
    {f : Failure} :
    showQuery .permissions x = .error (.failure f) ↔ x = .error f := by
  cases x with
  | ok table => simp [showQuery]
  | error f' => simp [showQuery]

theorem inTime_showQuery_permissions_iff {x : Except Failure (Table Bool)} :
    (showQuery .permissions x).InTime ↔
      ∀ milliseconds, x ≠ .error (.timeout milliseconds) :=
  forall_congr' fun _ => not_congr showQuery_permissions_eq_error_iff

/-- **Resolvers answer many permissions as single ones**, each for its
tenant. -/
theorem answersManyAsSingle_ask (resolver : String → Resolver) :
    AnswersManyAsSingle (fun q => q.ask (resolver q.tenant))
      fun tenant => (resolver tenant).resolveSchema where
  many_fails request permissions htime f :=
    showQuery_permissions_eq_error_iff.trans
      (Resolver.checkMultiple_eq_error_iff
        (inTime_showQuery_permissions_iff.mp htime))
  many_tells request permissions htime found hs := by
    obtain ⟨table, htable, htells⟩ := Resolver.checkMultiple_tells hs
      (inTime_showQuery_permissions_iff.mp htime)
    refine ⟨table, showQuery_permissions_eq_iff.mpr htable, ?_⟩
    exact htells.congr fun permission => showQuery_allowed_eq_iff.symm
  all_tells request hv htime found hs entity he := by
    obtain ⟨table, htable, htells⟩ := Resolver.subjectPermission_tells hv hs he
      (inTime_showQuery_permissions_iff.mp htime)
    refine ⟨table, showQuery_permissions_eq_iff.mpr htable, ?_⟩
    exact htells.congr fun permission => showQuery_allowed_eq_iff.symm

/-- Which permissions someone holds on a document who says to own it. -/
def ownerQuestion : SubjectPermissionRequest where
  tenant := "t"
  entity := ⟨"document", "d"⟩
  subject := ⟨"user", "u"⟩
  contextual := [⟨"document", "d", "owner", "user", "u", none⟩]

/-- The table that is answered, if one is. -/
def permissionsOf? : Answer → Option (Table Bool)
  | .permissions table => some table
  | _ => none

theorem permissionsOf?_eq_some_iff {answer : Answer} {table : Table Bool} :
    permissionsOf? answer = some table ↔ answer = .permissions table := by
  cases answer <;> simp [permissionsOf?]

end Service

end Entitlement
