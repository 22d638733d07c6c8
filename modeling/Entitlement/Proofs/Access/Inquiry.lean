import Entitlement.Access.Lookup
import Entitlement.Proofs.Access.Levels

/-!
# Queries as the lookups that they make

A query is a function of the schemas and of the truth of expressions. In what
order it looks these up, and how often, is not to be seen from a function, yet
it matters when something is kept for the next lookup. An `Inquiry` is a query
that is taken apart at its lookups: it is done, or it looks up a schema or the
truth of an expression and goes on with what it gets.

Every query of a `Resolver` has its inquiry, which makes the lookups one after
the other, when they are needed and not before. It reads tuples and attributes
from the resolver, and nothing else. `Asking.outcome` answers all lookups of
an inquiry by one pair of functions, and then the inquiry comes to what the
query comes to over these functions (`Resolver.withLookups`).
-/

namespace Entitlement

/-- **What lookups come to.** -/
structure Lookups where
  /-- The schema of a tenant in a version, or the latest. -/
  schema : String → Option String → Except Failure Schema
  /-- The truth value of an expression. -/
  truth : String → ConditionContext → Except ConditionError Bool

/-- **What comes to something by way of lookups.** -/
inductive Inquiry (α : Type)
  | done (a : α)
  | schema (tenant : String) (version : Option String)
      (next : Except Failure Schema → Inquiry α)
  | truth (text : String) (context : ConditionContext)
      (next : Except ConditionError Bool → Inquiry α)

namespace Inquiry

variable {α β γ : Type}

/-- Goes on with what an inquiry comes to. -/
def bind : Inquiry α → (α → Inquiry β) → Inquiry β
  | done a, f => f a
  | schema tenant version next, f =>
    schema tenant version fun x => (next x).bind f
  | truth text context next, f => truth text context fun x => (next x).bind f

instance : Monad Inquiry where
  pure := done
  bind := bind

theorem bind_done (x : Inquiry α) : x.bind done = x := by
  induction x with
  | done a => rfl
  | schema tenant version next ih =>
    exact congrArg (schema tenant version) (funext ih)
  | truth text context next ih =>
    exact congrArg (truth text context) (funext ih)

theorem bind_bind (x : Inquiry α) (f : α → Inquiry β) (g : β → Inquiry γ) :
    (x.bind f).bind g = x.bind fun a => (f a).bind g := by
  induction x with
  | done a => rfl
  | schema tenant version next ih =>
    exact congrArg (schema tenant version) (funext ih)
  | truth text context next ih =>
    exact congrArg (truth text context) (funext ih)

instance : LawfulMonad Inquiry :=
  LawfulMonad.mk' Inquiry bind_done (fun _ _ => rfl) bind_bind

/-- **What an inquiry comes to**, given what its lookups come to. -/
def result (l : Lookups) : Inquiry α → α
  | done a => a
  | schema tenant version next => (next (l.schema tenant version)).result l
  | truth text context next => (next (l.truth text context)).result l

theorem result_bind (l : Lookups) (x : Inquiry α) (f : α → Inquiry β) :
    (x >>= f).result l = (f (x.result l)).result l := by
  induction x with
  | done a => rfl
  | schema tenant version next ih => exact ih _
  | truth text context next ih => exact ih _

end Inquiry

/-- **An inquiry that may fail.** -/
abbrev Asking (ε : Type) := ExceptT ε Inquiry

namespace Asking

variable {ε ε' α β : Type} (l : Lookups)

/-- What it comes to, given what its lookups come to. -/
def outcome (x : Asking ε α) : Except ε α :=
  x.run.result l

/-- Looks up the schema that a query means. -/
def schema (tenant : String) (version : Option String) :
    Asking Failure Schema :=
  ExceptT.mk (.schema tenant (versionMeant version) .done)

/-- Looks up the truth value of an expression. -/
def truth (text : String) (context : ConditionContext) :
    Asking ConditionError Bool :=
  ExceptT.mk (.truth text context .done)

/-- Changes what an inquiry comes to, its failure included. -/
def mapOutcome (f : Except ε α → Except ε' β) (x : Asking ε α) :
    Asking ε' β :=
  ExceptT.mk (f <$> x.run)

/-! ### What they come to -/

@[simp] theorem outcome_pure (a : α) :
    outcome l (pure a : Asking ε α) = .ok a := rfl

@[simp] theorem outcome_liftM (x : Except ε α) :
    outcome l (liftM x : Asking ε α) = x := rfl

@[simp] theorem outcome_bind (x : Asking ε α) (f : α → Asking ε β) :
    outcome l (x >>= f) = x.outcome l >>= fun a => (f a).outcome l := by
  unfold outcome
  rw [ExceptT.run_bind, Inquiry.result_bind]
  cases x.run.result l <;> rfl

@[simp] theorem outcome_mapOutcome (f : Except ε α → Except ε' β)
    (x : Asking ε α) : outcome l (x.mapOutcome f) = f (x.outcome l) :=
  Inquiry.result_bind l x.run fun a => .done (f a)

@[simp] theorem outcome_map (f : α → β) (x : Asking ε α) :
    outcome l (f <$> x) = f <$> x.outcome l := by
  rw [← bind_pure_comp, outcome_bind]
  cases x.outcome l <;> rfl

/-- A search comes to what a search among the outcomes comes to. -/
theorem outcome_anyM {p : α → Asking ε Bool} {p' : α → Except ε Bool}
    (h : ∀ a, (p a).outcome l = p' a) (xs : List α) :
    outcome l (xs.anyM p) = xs.anyM p' := by
  induction xs with
  | nil => rfl
  | cons a xs ih =>
    rw [List.anyM, List.anyM, outcome_bind, h]
    refine congrArg _ (funext fun b => ?_)
    cases b with
    | true => rfl
    | false => exact ih

theorem outcome_mapM {f : α → Asking ε β} {f' : α → Except ε β}
    (h : ∀ a, (f a).outcome l = f' a) (xs : List α) :
    outcome l (xs.mapM f) = xs.mapM f' := by
  induction xs with
  | nil => rfl
  | cons a xs ih =>
    rw [List.mapM_cons, List.mapM_cons]
    simp [h, ih]

end Asking

/-! ## Over lookups -/

/-- The resolver that answers lookups of a tenant by these functions. -/
def Resolver.withLookups (r : Resolver) (l : Lookups) (tenant : String) :
    Resolver :=
  { r with schema := l.schema tenant, holds := l.truth }

namespace Evaluation

/-- The evaluation over that resolver. -/
def withLookups (q : Evaluation) (l : Lookups) (tenant : String) : Evaluation :=
  { q with resolver := q.resolver.withLookups l tenant }

variable (q : Evaluation) (l : Lookups) (tenant : String)

/-! Tuples and attributes are read as before. -/

@[simp] theorem schema_withLookups :
    (q.withLookups l tenant).schema = q.schema := rfl

@[simp] theorem holdsDirectly_withLookups :
    (q.withLookups l tenant).holdsDirectly = q.holdsDirectly := rfl

@[simp] theorem holdsViaUserset_withLookups :
    (q.withLookups l tenant).holdsViaUserset = q.holdsViaUserset := rfl

@[simp] theorem parents_withLookups :
    (q.withLookups l tenant).parents = q.parents := rfl

end Evaluation

/-! ## Evaluating permission rules -/

namespace Evaluation

/-- What happens one level deeper. -/
abbrev Asks := EntityRef → PermissionRule → Asking Failure Bool

/-- Asks whether the subject holds a relation or permission of an entity. -/
def askName (q : Evaluation) (deeper : Asks) (e : EntityRef) (name : String) :
    Asking Failure Bool :=
  match q.schema.entity? e.type with
  | none => throw (.entityNotFound e.type)
  | some entity =>
    match entity.permission? name with
    | some permission => deeper e permission.rule
    | none =>
      match entity.relation? name with
      | none => throw (.relationNotFound e.type name)
      | some _ => do
        if ← q.holdsDirectly e name then pure true
        else q.holdsViaUserset e name

/-- Asks whether the subject holds a permission, or else a relation, of a
parent. -/
def askOnParent (q : Evaluation) (deeper : Asks) (permission : String)
    (parent : EntityRef) : Asking Failure Bool :=
  match q.schema.permission? parent.type permission with
  | some p =>
    (deeper parent p.rule).mapOutcome fun outcome =>
      outcome.mapError (Failure.within parent.type parent.id permission)
  | none => liftM (q.holdsDirectly parent permission)

/-- **Asks the parents of an entity**, until the subject holds the permission
of one. -/
def askMember (q : Evaluation) (deeper : Asks) (e : EntityRef)
    (relation permission : String) : Asking Failure Bool :=
  match q.schema.entity? e.type with
  | none => throw (.entityNotFound e.type)
  | some entity =>
    match entity.relation? relation with
    | none => throw (.relationNotFound e.type relation)
    | some r => do
      (← q.parents e r).anyM (q.askOnParent deeper permission)

/-- **Looks up whether an expression holds** of an entity and the subject,
after their attributes were read. -/
def askExpression (q : Evaluation) (e : EntityRef) (rule expression : String) :
    Asking Failure Bool := do
  let resource ← q.resolver.attributes e
  let subject ← q.resolver.attributes q.subject
  (Asking.truth expression ⟨resource, subject, q.context⟩).mapOutcome
    fun outcome => outcome.mapError (Failure.expression rule)

/-- Asks whether a rule of the schema holds. -/
def askRule (q : Evaluation) (e : EntityRef) (name : String)
    (arguments : List String) : Asking Failure Bool :=
  match q.schema.rule? name with
  | none => throw (.ruleNotFound name)
  | some rule =>
    if rule.parameters.length = arguments.length then
      q.askExpression e name rule.body
    else
      throw (.arityMismatch name rule.parameters.length arguments.length)

/-- **Asks whether a rule holds**, given what happens one level deeper. An
operand that no longer matters makes no lookups. -/
def askStep (q : Evaluation) (deeper : Asks) (e : EntityRef) :
    PermissionRule → Asking Failure Bool
  | .relation name => q.askName deeper e name
  | .binary .or left right => do
    if ← q.askStep deeper e left then pure true
    else q.askStep deeper e right
  | .binary .and left right => do
    if ← q.askStep deeper e left then q.askStep deeper e right
    else pure false
  | .incomplete op _ => throw (.missingOperand op)
  | .not operand => not <$> q.askStep deeper e operand
  | .notWith operand _ => not <$> q.askStep deeper e operand
  | .member relation permission => q.askMember deeper e relation permission
  | .inline expression => q.askExpression e expression expression
  | .call name arguments => q.askRule e name arguments

/-- **Asks whether a rule holds with so many levels left.** -/
def ask (q : Evaluation) : Nat → Asks
  | 0, _, _ => throw q.resolver.tooDeep
  | levels + 1, e, rule => q.askStep (q.ask levels) e rule

section

variable (q : Evaluation) (l : Lookups) (tenant : String) {asks : Asks}
  {deeper : Deeper} (h : ∀ e rule, (asks e rule).outcome l = deeper e rule)

include h

theorem outcome_askName (e : EntityRef) (name : String) :
    (q.askName asks e name).outcome l
      = (q.withLookups l tenant).holdsName deeper e name := by
  unfold askName holdsName
  simp only [schema_withLookups, holdsDirectly_withLookups,
    holdsViaUserset_withLookups]
  cases q.schema.entity? e.type with
  | none => rfl
  | some entity =>
    simp only
    cases entity.permission? name with
    | some permission => exact h e permission.rule
    | none =>
      cases entity.relation? name with
      | none => rfl
      | some _ =>
        simp only [Asking.outcome_bind, Asking.outcome_liftM]
        refine congrArg _ (funext fun b => ?_)
        cases b <;> rfl

theorem outcome_askOnParent (permission : String) (parent : EntityRef) :
    (q.askOnParent asks permission parent).outcome l
      = (q.withLookups l tenant).holdsOnParent deeper permission parent := by
  unfold askOnParent holdsOnParent
  simp only [schema_withLookups, holdsDirectly_withLookups]
  cases q.schema.permission? parent.type permission with
  | none => rfl
  | some p => rw [Asking.outcome_mapOutcome, h]

theorem outcome_askMember (e : EntityRef) (relation permission : String) :
    (q.askMember asks e relation permission).outcome l
      = (q.withLookups l tenant).holdsMember deeper e relation permission := by
  unfold askMember holdsMember
  simp only [schema_withLookups, parents_withLookups]
  cases q.schema.entity? e.type with
  | none => rfl
  | some entity =>
    simp only
    cases entity.relation? relation with
    | none => rfl
    | some r =>
      simp only [Asking.outcome_bind, Asking.outcome_liftM,
        Asking.outcome_anyM l (q.outcome_askOnParent l tenant h permission)]

omit h in
theorem outcome_askExpression (e : EntityRef) (rule expression : String) :
    (q.askExpression e rule expression).outcome l
      = (q.withLookups l tenant).satisfies e rule expression := by
  unfold askExpression satisfies
  simp only [Asking.outcome_bind, Asking.outcome_liftM,
    Asking.outcome_mapOutcome]
  rfl

omit h in
theorem outcome_askRule (e : EntityRef) (name : String)
    (arguments : List String) :
    (q.askRule e name arguments).outcome l
      = (q.withLookups l tenant).satisfiesRule e name arguments := by
  unfold askRule satisfiesRule
  simp only [schema_withLookups]
  cases q.schema.rule? name with
  | none => rfl
  | some rule =>
    simp only
    split
    · exact q.outcome_askExpression l tenant e name rule.body
    · rfl

/-- **A rule that is asked for comes to what it is evaluated to**, one level
deep. -/
theorem outcome_askStep (e : EntityRef) (rule : PermissionRule) :
    (q.askStep asks e rule).outcome l
      = (q.withLookups l tenant).step deeper e rule := by
  induction rule with
  | relation name => exact q.outcome_askName l tenant h e name
  | binary op left right hleft hright =>
    cases op with
    | or =>
      rw [askStep, step, Asking.outcome_bind, hleft]
      refine congrArg _ (funext fun b => ?_)
      cases b with
      | true => rfl
      | false => exact hright
    | and =>
      rw [askStep, step, Asking.outcome_bind, hleft]
      refine congrArg _ (funext fun b => ?_)
      cases b with
      | true => exact hright
      | false => rfl
  | incomplete => rfl
  | not operand ih =>
    rw [askStep, step, Asking.outcome_map, ih]
    rfl
  | notWith operand _ ih =>
    rw [askStep, step, Asking.outcome_map, ih]
    rfl
  | member relation permission =>
    exact q.outcome_askMember l tenant h e relation permission
  | inline expression =>
    exact q.outcome_askExpression l tenant e expression expression
  | call name arguments => exact q.outcome_askRule l tenant e name arguments

omit h in
/-- So it does on all levels. -/
theorem outcome_ask (levels : Nat) (e : EntityRef) (rule : PermissionRule) :
    (q.ask levels e rule).outcome l
      = (q.withLookups l tenant).evaluate levels e rule := by
  induction levels generalizing e rule with
  | zero => rfl
  | succ levels ih => exact q.outcome_askStep l tenant ih e rule

end

end Evaluation

/-! ## Checks -/

namespace Resolver

/-- Asks for a check in a schema that was looked up already. -/
def askInSchema (r : Resolver) (schema : Schema) (request : CheckRequest) :
    Asking Failure Bool := do
  let entity := request.entity
  let permission ← findPermission schema entity.type request.permission
  ((r.evaluation schema request).ask (r.levelsLeft 0) entity
    permission.rule).mapOutcome fun outcome =>
      outcome.mapError (Failure.located entity.type entity.id
        request.permission)

/-- **Asks for a check.** -/
def askCheck (r : Resolver) (request : CheckRequest) :
    Asking Failure Bool := do
  request.validate
  r.askInSchema (← Asking.schema request.tenant request.version) request

/-- Asks for one of many permissions. -/
def askOne (r : Resolver) (schema : Schema) (request : CheckRequest) :
    Asking Failure Bool :=
  Asking.mapOutcome (Failure.deny false) do
    request.validate
    r.askInSchema schema request

/-- Asks for many permissions, one after the other. -/
def askEach (r : Resolver) (schema : Schema) (request : String → CheckRequest)
    (permissions : List String) : Asking Failure (Table Bool) := do
  let answers ← permissions.mapM fun permission => do
    pure (permission, ← r.askOne schema (request permission))
  pure (Table.ofPairs answers)

/-- **Asks which of some permissions the subject holds.** -/
def askMultiple (r : Resolver) (request : CheckRequest)
    (permissions : List String) : Asking Failure (Table Bool) := do
  let schema ← Asking.schema request.tenant request.version
  r.askEach schema (fun permission => { request with permission }) permissions

/-- **Asks which permissions of the entity the subject holds.** -/
def askSubjectPermission (r : Resolver) (request : SubjectPermissionRequest) :
    Asking Failure (Table Bool) := do
  request.validate
  let schema ← Asking.schema request.tenant request.version
  match schema.entity? request.entity.type with
  | none => throw (.entityNotFound request.entity.type)
  | some entity =>
    r.askEach schema request.toCheck (entity.permissions.map Permission.name)

section

variable (r : Resolver) (l : Lookups) (tenant : String)

theorem outcome_askInSchema (schema : Schema) (request : CheckRequest) :
    (r.askInSchema schema request).outcome l
      = (r.withLookups l tenant).checkInSchema schema request := by
  unfold askInSchema
  rw [checkInSchema_eq]
  simp only [Asking.outcome_bind, Asking.outcome_liftM,
    Asking.outcome_mapOutcome, Evaluation.outcome_ask _ l tenant]
  rfl

/-- **A check that is asked for comes to the check.** -/
theorem outcome_askCheck (request : CheckRequest) :
    (r.askCheck request).outcome l
      = (r.withLookups l request.tenant).check request := by
  unfold askCheck check
  simp only [Asking.outcome_bind, Asking.outcome_liftM,
    r.outcome_askInSchema l request.tenant]
  rfl

theorem outcome_askOne (schema : Schema) (request : CheckRequest) :
    (r.askOne schema request).outcome l
      = (r.withLookups l tenant).checkOne schema request := by
  unfold askOne checkOne
  simp only [Asking.outcome_bind, Asking.outcome_liftM,
    Asking.outcome_mapOutcome, r.outcome_askInSchema l tenant]

theorem outcome_askEach (schema : Schema) (request : String → CheckRequest)
    (permissions : List String) :
    (r.askEach schema request permissions).outcome l
      = (r.withLookups l tenant).checkEach schema request permissions := by
  unfold askEach checkEach
  rw [Asking.outcome_bind, Asking.outcome_mapM l fun permission => ?_]
  · rfl
  · simp only [Asking.outcome_bind, r.outcome_askOne l tenant]
    rfl

theorem outcome_askMultiple (request : CheckRequest)
    (permissions : List String) :
    (r.askMultiple request permissions).outcome l
      = (r.withLookups l request.tenant).checkMultiple request permissions := by
  unfold askMultiple checkMultiple
  simp only [Asking.outcome_bind, r.outcome_askEach l request.tenant]
  rfl

theorem outcome_askSubjectPermission (request : SubjectPermissionRequest) :
    (r.askSubjectPermission request).outcome l
      = (r.withLookups l request.tenant).subjectPermission request := by
  unfold askSubjectPermission subjectPermission
  simp only [Asking.outcome_bind, Asking.outcome_liftM]
  refine congrArg _ (funext fun _ => congrArg _ (funext fun schema => ?_))
  cases schema.entity? request.entity.type with
  | none => rfl
  | some entity => exact r.outcome_askEach l request.tenant schema _ _

end

end Resolver

/-! ## Lookups -/

/-- **Asks for the page of the allowed candidates.** The candidates behind the
page are not asked for. -/
def askPage (allowed : String → Asking Failure Bool) (size : Nat) :
    List String → Asking Failure Page
  | [] => pure ⟨[], none⟩
  | id :: rest => do
    if ← allowed id then
      if size ≤ 1 then pure ⟨[id], if rest.isEmpty then none else some id⟩
      else
        let page ← askPage allowed (size - 1) rest
        pure ⟨id :: page.ids, page.next⟩
    else askPage allowed size rest

theorem outcome_askPage (l : Lookups) {allowed : String → Asking Failure Bool}
    {allowed' : String → Except Failure Bool}
    (h : ∀ id, (allowed id).outcome l = allowed' id) (size : Nat)
    (candidates : List String) :
    (askPage allowed size candidates).outcome l
      = scanPage allowed' size candidates := by
  induction candidates generalizing size with
  | nil => rfl
  | cons id rest ih =>
    rw [askPage, scanPage, Asking.outcome_bind, h]
    refine congrArg _ (funext fun b => ?_)
    cases b with
    | false => exact ih size
    | true =>
      simp only [if_true]
      split
      · rfl
      · rw [Asking.outcome_bind, ih]
        rfl

namespace Resolver

/-- Asks for the page of a lookup with its candidates. -/
def askScan (r : Resolver) (schema : Schema) (page : PageRequest)
    (candidates : List String) (toCheck : String → CheckRequest) :
    Asking Failure Page :=
  askPage (fun id =>
      (r.askInSchema schema (toCheck id)).mapOutcome (Failure.deny false))
    (r.pageSize page) (behindToken page.token candidates)

/-- **Asks for the entities on which the subject holds the permission.** -/
def askEntities (r : Resolver) (request : LookupEntityRequest) :
    Asking Failure Page := do
  request.validate
  let schema ← Asking.schema request.tenant request.version
  let _ ← findPermission schema request.entityType request.permission
  let candidates ← r.candidates { entityType := some request.entityType }
    request.contextual entityCandidate
  r.askScan schema request.page candidates request.toCheck

/-- **Asks for the subjects that hold the permission on the entity.** -/
def askSubjects (r : Resolver) (request : LookupSubjectRequest) :
    Asking Failure Page := do
  request.validate
  let schema ← Asking.schema request.tenant request.version
  let _ ← findPermission schema request.entity.type request.permission
  let candidates ← r.candidates { subjectType := some request.subjectType }
    request.contextual subjectCandidate
  r.askScan schema request.page candidates request.toCheck

/-- **Asks for the tree behind a permission.** Expressions are shown in it and
not looked up. -/
def askTree (r : Resolver) (request : ExpandRequest) :
    Asking Failure ExpandTree := do
  request.validate
  let schema ← Asking.schema request.tenant request.version
  let permission ← findPermission schema request.entity.type request.permission
  Expansion.expandAt ⟨r, schema⟩ 0 request.entity permission.rule

section

variable (r : Resolver) (l : Lookups)

theorem outcome_askScan (tenant : String) (schema : Schema)
    (page : PageRequest) (candidates : List String)
    (toCheck : String → CheckRequest) :
    (r.askScan schema page candidates toCheck).outcome l
      = (r.withLookups l tenant).scan schema page candidates toCheck := by
  refine outcome_askPage l (fun id => ?_) _ _
  rw [Asking.outcome_mapOutcome, r.outcome_askInSchema l tenant]

theorem outcome_askEntities (request : LookupEntityRequest) :
    (r.askEntities request).outcome l
      = (r.withLookups l request.tenant).lookupEntity request := by
  unfold askEntities lookupEntity
  simp only [Asking.outcome_bind, Asking.outcome_liftM,
    r.outcome_askScan l request.tenant]
  rfl

theorem outcome_askSubjects (request : LookupSubjectRequest) :
    (r.askSubjects request).outcome l
      = (r.withLookups l request.tenant).lookupSubject request := by
  unfold askSubjects lookupSubject
  simp only [Asking.outcome_bind, Asking.outcome_liftM,
    r.outcome_askScan l request.tenant]
  rfl

end

end Resolver

/-! ## Expansions -/

namespace Expansion

variable (r : Resolver) (l : Lookups) (tenant : String) (schema : Schema)

/-- An expansion makes no lookups. -/
theorem step_withLookups (deeper : Deeper) (e : EntityRef)
    (rule : PermissionRule) :
    step ⟨r.withLookups l tenant, schema⟩ deeper e rule
      = step ⟨r, schema⟩ deeper e rule := by
  induction rule with
  | binary op left right hleft hright =>
    rw [step, step, hleft, hright]
  | incomplete op left ih => rw [step, step, ih]
  | not operand ih => rw [step, step, ih]
  | notWith operand _ ih => rw [step, step, ih]
  | _ => rfl

theorem expand_withLookups (levels : Nat) :
    expand ⟨r.withLookups l tenant, schema⟩ levels
      = expand ⟨r, schema⟩ levels := by
  induction levels with
  | zero => rfl
  | succ levels ih =>
    funext e rule
    rw [expand, expand, ih, step_withLookups]

end Expansion

theorem Resolver.outcome_askTree (r : Resolver) (l : Lookups)
    (request : ExpandRequest) :
    (r.askTree request).outcome l
      = (r.withLookups l request.tenant).expand request := by
  unfold askTree
  rw [Resolver.expand_eq]
  simp only [Asking.outcome_bind, Asking.outcome_liftM,
    Expansion.expandAt_eq, Expansion.expand_withLookups]
  rfl

end Entitlement
