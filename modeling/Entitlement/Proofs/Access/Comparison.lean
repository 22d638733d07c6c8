import Entitlement.Proofs.Access.World
import Entitlement.Proofs.Access.Step
import Entitlement.Proofs.Schema.Reach

/-!
# Evaluations side by side

An evaluation learns about the world by four questions: whether a relation
is held directly, whether it is held by way of a userset, which parents it
leads to, and whether an expression holds. Everything else comes from the
schema and from the levels below. So two evaluations in one schema are
compared by their answers to these questions. What is true of each answer
of the one and that of the other is true of the evaluation of every rule,
if it passes through the forms of rules (`Evaluation.Compares.evaluate`).

Which questions are asked depends on the rules. So a comparison is for
rules of a sort, and only what such rules ask counts. The sort has to be
closed: what a rule of the sort leads to is of the sort.

The most common comparison is that one evaluation *settles* another one:
what the first is answered, the second is answered too, unless the first
meets a failure that is excused (`Evaluation.Settles`). A schema follows
only some of its relations, and `goes` says which of them matter as ways to
parents.
-/

namespace Entitlement

/-- **Whether rules of a sort lead to rules of the sort**, as far as they
are evaluated. A connective without its right operand never is. -/
structure Schema.IsClosed (s : Schema)
    (sort : String → PermissionRule → Prop) : Prop where
  left : ∀ {type op left right},
    sort type (.binary op left right) → sort type left
  right : ∀ {type op left right},
    sort type (.binary op left right) → sort type right
  not : ∀ {type operand}, sort type (.not operand) → sort type operand
  notWith : ∀ {type operand spare},
    sort type (.notWith operand spare) → sort type operand
  name : ∀ {type name p}, sort type (.relation name) →
    s.permission? type name = some p → sort type p.rule
  member : ∀ {type relation permission r target p},
    sort type (.member relation permission) →
    s.relation? type relation = some r → target ∈ r.directTypes →
    s.permission? target permission = some p → sort target p.rule

namespace Evaluation

variable {R : Except Failure Bool → Except Failure Bool → Prop}
  {sort : String → PermissionRule → Prop} {q q' : Evaluation}
  {deeper deeper' : Deeper} {e : EntityRef}

/-! ## Comparisons -/

/-- **Whether a relation between outcomes passes** from what a rule is put
together of to the rule, negations aside, and from a failure to the same
one in other words. -/
structure Passes (R : Except Failure Bool → Except Failure Bool → Prop) :
    Prop where
  error : ∀ f, R (.error f) (.error f)
  or : ∀ {x x' y y'}, R x x' → R y y' →
    R (do if ← x then pure true else y) (do if ← x' then pure true else y')
  and : ∀ {x x' y y'}, R x x' → R y y' →
    R (do if ← x then y else pure false) (do if ← x' then y' else pure false)
  within : ∀ {x x'} (type id permission : String), R x x' →
    R (x.mapError (Failure.within type id permission))
      (x'.mapError (Failure.within type id permission))
  located : ∀ {x x'} (type id permission : String), R x x' →
    R (x.mapError (Failure.located type id permission))
      (x'.mapError (Failure.located type id permission))

/-- **Whether two evaluations compare** under a relation between outcomes,
as far as the questions go that rules of a sort ask. -/
structure Compares (R : Except Failure Bool → Except Failure Bool → Prop)
    (sort : String → PermissionRule → Prop) (q q' : Evaluation) : Prop where
  schema : q'.schema = q.schema
  passes : Passes R
  closed : q.schema.IsClosed sort
  not : ∀ {type operand}, sort type (.not operand) →
    ∀ {x x'}, R x x' → R (x.map Bool.not) (x'.map Bool.not)
  notWith : ∀ {type operand spare}, sort type (.notWith operand spare) →
    ∀ {x x'}, R x x' → R (x.map Bool.not) (x'.map Bool.not)
  direct : ∀ {e : EntityRef} {name r}, sort e.type (.relation name) →
    q.schema.relation? e.type name = some r →
    R (q.holdsDirectly e name) (q'.holdsDirectly e name)
  userset : ∀ {e : EntityRef} {name r}, sort e.type (.relation name) →
    q.schema.relation? e.type name = some r →
    R (q.holdsViaUserset e name) (q'.holdsViaUserset e name)
  /-- A parent whose type lacks the permission is asked for a relation. -/
  fallback : ∀ {type relation permission r} {parent : EntityRef},
    sort type (.member relation permission) →
    q.schema.relation? type relation = some r →
    parent.type ∈ r.directTypes →
    q.schema.permission? parent.type permission = none →
    R (q.holdsDirectly parent permission) (q'.holdsDirectly parent permission)
  /-- A search among the parents compares if what it asks of each parent
  does. -/
  search : ∀ {e : EntityRef} {relation permission r}
    {p p' : EntityRef → Except Failure Bool},
    sort e.type (.member relation permission) →
    q.schema.relation? e.type relation = some r →
    (∀ parent, parent.type ∈ r.directTypes → R (p parent) (p' parent)) →
    R (do (← q.parents e r).anyM p) (do (← q'.parents e r).anyM p')
  satisfies : ∀ e rule expression,
    R (q.satisfies e rule expression) (q'.satisfies e rule expression)

namespace Compares

/-! ## One level -/

theorem holdsName (h : q.Compares R sort q')
    (hbelow : ∀ e rule, sort e.type rule →
      R (deeper e rule) (deeper' e rule)) {name : String}
    (hsort : sort e.type (.relation name)) :
    R (q.holdsName deeper e name) (q'.holdsName deeper' e name) := by
  unfold Evaluation.holdsName
  rw [h.schema]
  split
  next => exact h.passes.error _
  next entity he =>
    split
    next p hp =>
      exact hbelow e p.rule (h.closed.name hsort
        (Schema.permission?_eq_some_iff.mpr ⟨entity, he, hp⟩))
    next =>
      split
      next => exact h.passes.error _
      next r hr =>
        have hrel := Schema.relation?_eq_some_iff.mpr ⟨entity, he, hr⟩
        exact h.passes.or (h.direct hsort hrel) (h.userset hsort hrel)

theorem holdsOnParent (h : q.Compares R sort q')
    (hbelow : ∀ e rule, sort e.type rule →
      R (deeper e rule) (deeper' e rule)) {type relation permission : String}
    (hsort : sort type (.member relation permission)) {r : Relation}
    (hr : q.schema.relation? type relation = some r) {parent : EntityRef}
    (htype : parent.type ∈ r.directTypes) :
    R (q.holdsOnParent deeper permission parent)
      (q'.holdsOnParent deeper' permission parent) := by
  unfold Evaluation.holdsOnParent
  rw [h.schema]
  split
  next p hp =>
    exact h.passes.within parent.type parent.id permission
      (hbelow parent p.rule (h.closed.member hsort hr htype hp))
  next hp => exact h.fallback hsort hr htype hp

theorem holdsMember (h : q.Compares R sort q')
    (hbelow : ∀ e rule, sort e.type rule →
      R (deeper e rule) (deeper' e rule)) {relation permission : String}
    (hsort : sort e.type (.member relation permission)) :
    R (q.holdsMember deeper e relation permission)
      (q'.holdsMember deeper' e relation permission) := by
  unfold Evaluation.holdsMember
  rw [h.schema]
  split
  next => exact h.passes.error _
  next entity he =>
    split
    next => exact h.passes.error _
    next r hr =>
      have hrel := Schema.relation?_eq_some_iff.mpr ⟨entity, he, hr⟩
      exact h.search hsort hrel fun parent htype =>
        h.holdsOnParent hbelow hsort hrel htype

theorem satisfiesRule (h : q.Compares R sort q') (name : String)
    (arguments : List String) :
    R (q.satisfiesRule e name arguments)
      (q'.satisfiesRule e name arguments) := by
  unfold Evaluation.satisfiesRule
  rw [h.schema]
  split
  next => exact h.passes.error _
  next rule _ =>
    split
    next => exact h.satisfies e name rule.body
    next => exact h.passes.error _

/-- **One level of two evaluations compares**, if the levels below do. -/
theorem step (h : q.Compares R sort q')
    (hbelow : ∀ e rule, sort e.type rule →
      R (deeper e rule) (deeper' e rule)) {rule : PermissionRule}
    (hsort : sort e.type rule) :
    R (q.step deeper e rule) (q'.step deeper' e rule) := by
  induction rule with
  | relation name => exact h.holdsName hbelow hsort
  | binary op left right ihl ihr =>
    have hleft := ihl (h.closed.left hsort)
    have hright := ihr (h.closed.right hsort)
    cases op with
    | or => exact h.passes.or hleft hright
    | and => exact h.passes.and hleft hright
  | incomplete op left => exact h.passes.error _
  | not operand ih => exact h.not hsort (ih (h.closed.not hsort))
  | notWith operand spare ih =>
    exact h.notWith hsort (ih (h.closed.notWith hsort))
  | member relation permission => exact h.holdsMember hbelow hsort
  | inline expression => exact h.satisfies e expression expression
  | call name arguments => exact h.satisfiesRule name arguments

/-! ## All levels -/

/-- **An evaluation compares with one that has at least as many levels**,
if it does where its own levels end. -/
theorem evaluate (h : q.Compares R sort q') {more : Nat}
    (hend : ∀ e rule, R (q.evaluate 0 e rule) (q'.evaluate more e rule))
    (levels : Nat) {rule : PermissionRule} (hsort : sort e.type rule) :
    R (q.evaluate levels e rule) (q'.evaluate (more + levels) e rule) := by
  induction levels generalizing e rule with
  | zero => exact hend e rule
  | succ levels ih => exact h.step (fun _ _ hsort => ih hsort) hsort

/-- Under one limit both end with the same levels. -/
theorem evaluateAt (h : q.Compares R sort q')
    (hlimit : q'.resolver.maxDepth = q.resolver.maxDepth) (depth : UInt32)
    {rule : PermissionRule} (hsort : sort e.type rule) :
    R (q.evaluateAt depth e rule) (q'.evaluateAt depth e rule) := by
  have hend : ∀ e rule, R (q.evaluate 0 e rule) (q'.evaluate 0 e rule) := by
    intro e rule
    unfold Evaluation.evaluate Resolver.tooDeep
    rw [hlimit]
    exact h.passes.error _
  have hlevels : q'.resolver.levelsLeft depth
      = q.resolver.levelsLeft depth := by
    unfold Resolver.levelsLeft
    rw [hlimit]
  rw [Evaluation.evaluateAt_eq, Evaluation.evaluateAt_eq, hlevels]
  simpa only [Nat.zero_add]
    using h.evaluate hend (q.resolver.levelsLeft depth) hsort

end Compares

end Evaluation

/-- **Checks of the same permission in the same schema compare**, if their
evaluations do. -/
theorem Resolver.compares_checkInSchema
    {R : Except Failure Bool → Except Failure Bool → Prop}
    {sort : String → PermissionRule → Prop} {r r' : Resolver}
    {schema : Schema} {request request' : CheckRequest}
    (h : (r.evaluation schema request).Compares R sort
      (r'.evaluation schema request'))
    (hlimit : r'.maxDepth = r.maxDepth)
    (hentity : request'.entity = request.entity)
    (hpermission : request'.permission = request.permission)
    (hsort : ∀ p,
      schema.permission? request.entity.type request.permission = some p →
        sort request.entity.type p.rule) :
    R (r.checkInSchema schema request)
      (r'.checkInSchema schema request') := by
  unfold checkInSchema
  rw [hentity, hpermission]
  dsimp only
  cases hfind : findPermission schema request.entity.type
      request.permission with
  | error f => exact h.passes.error f
  | ok p =>
    have hp := hsort p (findPermission_eq_ok_iff.mp hfind)
    exact h.passes.located _ _ _ (h.evaluateAt hlimit 0 hp)

/-! ## Evaluations that settle others -/

/-- **Whether failures are excused wherever they are met.** -/
def Failure.IsExcuse (excused : Failure → Prop) : Prop :=
  ∀ {f : Failure} (type id permission : String), excused f →
    excused (f.located type id permission)

theorem Failure.IsExcuse.within {excused : Failure → Prop}
    (h : IsExcuse excused) (type id permission : String) {f : Failure}
    (hf : excused f) : excused (f.within type id permission) := by
  unfold Failure.within
  split
  · exact hf
  · exact h type id permission hf

namespace Evaluation

/-- **Whether an evaluation settles another one**, as far as the questions
go that they ask: what the first is answered, the second is answered too,
unless the first meets a failure that is excused. -/
structure Settles (excused : Failure → Prop) (goes : String → String → Prop)
    (q q' : Evaluation) : Prop where
  schema : q'.schema = q.schema
  direct : ∀ e relation, Outcome.Settles excused
    (q.holdsDirectly e relation) (q'.holdsDirectly e relation)
  userset : ∀ e relation, Outcome.Settles excused
    (q.holdsViaUserset e relation) (q'.holdsViaUserset e relation)
  parents : ∀ (e : EntityRef) (r : Relation), goes e.type r.name →
    Outcome.Settles excused (q.parents e r) (q'.parents e r)
  satisfies : ∀ e rule expression, Outcome.Settles excused
    (q.satisfies e rule expression) (q'.satisfies e rule expression)

namespace Settles

variable {excused : Failure → Prop} {goes : String → String → Prop}
  {q q' : Evaluation} {e : EntityRef}

/-- To settle passes through rules: a part that is answered is answered the
same, so the first operand decides in both about the second one. -/
theorem passes (hexcuse : Failure.IsExcuse excused) :
    Passes (Outcome.Settles excused) where
  error f := .refl _
  or hx hy := hx.bind fun b _ => by
    cases b with
    | true => exact .refl _
    | false => exact hy
  and hx hy := hx.bind fun b _ => by
    cases b with
    | true => exact hy
    | false => exact .refl _
  within type id permission h :=
    h.mapError fun _ => hexcuse.within type id permission
  located type id permission h :=
    h.mapError fun _ => hexcuse type id permission

/-- **An evaluation that settles another one compares with it**, for rules
that go on by such relations only. -/
theorem compares (h : q.Settles excused goes q')
    (hexcuse : Failure.IsExcuse excused)
    (hschema : ∀ type relation, q.schema.traverses type relation = true →
      goes type relation) :
    q.Compares (Outcome.Settles excused)
      (fun type rule => ∀ relation ∈ rule.traversed, goes type relation)
      q' where
  schema := h.schema
  passes := passes hexcuse
  closed := {
    left := fun hsort relation hr =>
      hsort relation (List.mem_append_left _ hr)
    right := fun hsort relation hr =>
      hsort relation (List.mem_append_right _ hr)
    not := id
    notWith := id
    name := fun _ hp relation hr =>
      hschema _ relation (Schema.traverses_of_permission? hp hr)
    member := fun _ _ _ hp relation hr =>
      hschema _ relation (Schema.traverses_of_permission? hp hr) }
  not _ _ _ hx := hx.map Bool.not
  notWith _ _ _ hx := hx.map Bool.not
  direct _ _ := h.direct _ _
  userset _ _ := h.userset _ _
  fallback _ _ _ _ := h.direct _ _
  search {e relation permission r p p'} hsort hr hp := by
    have hgoes : goes e.type r.name := by
      rw [Schema.name_of_relation? hr]
      exact hsort relation (List.mem_singleton_self relation)
    have hparents := h.parents e r hgoes
    refine hparents.bind fun parents hok => Outcome.Settles.anyM ?_
    exact fun parent hparent =>
      hp parent (mem_directTypes_of_parents hok hparent)
  satisfies := h.satisfies

/-- **An evaluation settles another one that has at least as many levels**,
if it does where its own levels end. -/
theorem evaluate (h : q.Settles excused goes q')
    (hexcuse : Failure.IsExcuse excused)
    (hschema : ∀ type relation, q.schema.traverses type relation = true →
      goes type relation) {more : Nat}
    (hend : ∀ e rule, Outcome.Settles excused (q.evaluate 0 e rule)
      (q'.evaluate more e rule)) (levels : Nat) {rule : PermissionRule}
    (hgoes : ∀ relation ∈ rule.traversed, goes e.type relation) :
    Outcome.Settles excused (q.evaluate levels e rule)
      (q'.evaluate (more + levels) e rule) :=
  (h.compares hexcuse hschema).evaluate hend levels hgoes

/-- Under one limit both end with the same levels. -/
theorem evaluateAt (h : q.Settles excused goes q')
    (hexcuse : Failure.IsExcuse excused)
    (hschema : ∀ type relation, q.schema.traverses type relation = true →
      goes type relation)
    (hlimit : q'.resolver.maxDepth = q.resolver.maxDepth) (depth : UInt32)
    {rule : PermissionRule}
    (hgoes : ∀ relation ∈ rule.traversed, goes e.type relation) :
    Outcome.Settles excused (q.evaluateAt depth e rule)
      (q'.evaluateAt depth e rule) :=
  (h.compares hexcuse hschema).evaluateAt hlimit depth hgoes

end Settles

end Evaluation

/-- **A check settles another one** about the same permission in the same
schema, if its evaluation does. -/
theorem Resolver.settles_checkInSchema {excused : Failure → Prop}
    {goes : String → String → Prop} {r r' : Resolver} {schema : Schema}
    {request request' : CheckRequest}
    (h : (r.evaluation schema request).Settles excused goes
      (r'.evaluation schema request'))
    (hexcuse : Failure.IsExcuse excused)
    (hschema : ∀ type relation, schema.traverses type relation = true →
      goes type relation)
    (hlimit : r'.maxDepth = r.maxDepth)
    (hentity : request'.entity = request.entity)
    (hpermission : request'.permission = request.permission) :
    Outcome.Settles excused (r.checkInSchema schema request)
      (r'.checkInSchema schema request') :=
  compares_checkInSchema (h.compares hexcuse hschema) hlimit hentity
    hpermission fun _ hp _ hr =>
      hschema _ _ (Schema.traverses_of_permission? hp hr)

end Entitlement
