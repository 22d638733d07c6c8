import Entitlement.Access.Resolver

/-!
# Evaluating permission rules

Whether a rule holds of an entity for a subject. A rule is evaluated from
left to right, and an operand that no longer matters is not evaluated.

* A name is a permission of the entity if it has one of that name, and
  else a relation. The subject holds a relation *directly* by a tuple that
  names it, or *by way of a userset*: a tuple that names the holders of a
  relation on another entity, which the subject then has to hold directly.
* `relation.permission` asks each *parent*, an entity that the relation
  leads to, and holds if it holds of one of them. A parent whose type has
  no such permission is asked for a relation of that name.
* An expression is evaluated over the attributes of the entity and of the
  subject and the context of the query.

Data may be cyclic, so every step to another permission counts as one
level of depth, and beyond the limit the evaluation fails. `Evaluation.step`
evaluates a rule with what to do one level deeper as an argument, and
`Evaluation.evaluateAt` closes the circle from the depth where it starts.
-/

namespace Entitlement

/-- **What stays the same throughout an evaluation.** -/
structure Evaluation where
  resolver : Resolver
  schema : Schema
  subject : EntityRef
  /-- The tuples of the query. -/
  contextual : List Tuple
  /-- The context of the query. -/
  context : Attributes

namespace Evaluation

/-! ## Tuples -/

/-- Whether a tuple gives the subject a relation on an entity. -/
def isGrant (q : Evaluation) (e : EntityRef) (relation : String)
    (t : Tuple) : Bool :=
  !t.isUserset && t.entity == e && t.relation == relation &&
    t.subjectEntity == q.subject

/-- **Whether the subject holds a relation directly**, by a tuple of the
query or else by a stored one. -/
def holdsDirectly (q : Evaluation) (e : EntityRef) (relation : String) :
    Except Failure Bool :=
  if q.contextual.any (q.isGrant e relation) then .ok true
  else do
    let stored ← q.resolver.tuples (.grantsTo e relation q.subject)
    pure (stored.any (q.isGrant e relation))

/-- The tuples on a relation of an entity, those of the query last. -/
def tuplesOn (q : Evaluation) (e : EntityRef) (relation : String) :
    Except Failure (List Tuple) := do
  let filter := TupleFilter.onRelation e relation
  let stored ← q.resolver.tuples filter
  pure (stored ++ q.contextual.filter filter.admits)

/-- Whether the subject belongs to the userset that a tuple names. -/
def holdsUserset (q : Evaluation) (t : Tuple) : Except Failure Bool :=
  match t.subjectRelation with
  | none => .ok false
  | some relation => q.holdsDirectly t.subjectEntity relation

/-- **Whether the subject holds a relation by way of a userset.** -/
def holdsViaUserset (q : Evaluation) (e : EntityRef) (relation : String) :
    Except Failure Bool := do
  (← q.tuplesOn e relation).anyM q.holdsUserset

/-- **The parents of an entity**, in ascending order: the entities that a
relation leads to, of the types that it admits as they are. -/
def parents (q : Evaluation) (e : EntityRef) (relation : Relation) :
    Except Failure (List EntityRef) := do
  let tuples ← q.tuplesOn e relation.name
  let direct := tuples.filter fun t =>
    !t.isUserset && relation.directTypes.contains t.subjectType
  pure (ascending EntityRef.sortKey (direct.map Tuple.subjectEntity))

/-! ## Rules -/

/-- What happens one level deeper: a rule of an entity is evaluated. -/
abbrev Deeper := Descent Bool

/-- Whether the subject holds a relation or permission of an entity. -/
def holdsName (q : Evaluation) (deeper : Deeper) (e : EntityRef)
    (name : String) : Except Failure Bool :=
  match q.schema.entity? e.type with
  | none => .error (.entityNotFound e.type)
  | some entity =>
    match entity.permission? name with
    | some permission => deeper e permission.rule
    | none =>
      match entity.relation? name with
      | none => .error (.relationNotFound e.type name)
      | some _ => do
        if ← q.holdsDirectly e name then pure true
        else q.holdsViaUserset e name

/-- Whether the subject holds a permission, or else a relation, of a
parent. -/
def holdsOnParent (q : Evaluation) (deeper : Deeper) (permission : String)
    (parent : EntityRef) : Except Failure Bool :=
  match q.schema.permission? parent.type permission with
  | some p =>
    (deeper parent p.rule).mapError
      (Failure.within parent.type parent.id permission)
  | none => q.holdsDirectly parent permission

/-- **Whether the subject holds a permission of a parent**; the first
parent where it does decides. -/
def holdsMember (q : Evaluation) (deeper : Deeper) (e : EntityRef)
    (relation permission : String) : Except Failure Bool :=
  match q.schema.entity? e.type with
  | none => .error (.entityNotFound e.type)
  | some entity =>
    match entity.relation? relation with
    | none => .error (.relationNotFound e.type relation)
    | some r => do
      (← q.parents e r).anyM (q.holdsOnParent deeper permission)

/-- **Whether an expression holds** of an entity and the subject. `rule`
is what a failure names. -/
def satisfies (q : Evaluation) (e : EntityRef) (rule expression : String) :
    Except Failure Bool := do
  let resource ← q.resolver.attributes e
  let subject ← q.resolver.attributes q.subject
  (q.resolver.holds expression ⟨resource, subject, q.context⟩).mapError
    (Failure.expression rule)

/-- Whether a rule of the schema holds. Its arguments are counted, but
the body always sees the same variables. -/
def satisfiesRule (q : Evaluation) (e : EntityRef) (name : String)
    (arguments : List String) : Except Failure Bool :=
  match q.schema.rule? name with
  | none => .error (.ruleNotFound name)
  | some rule =>
    if rule.parameters.length = arguments.length then
      q.satisfies e name rule.body
    else
      .error (.arityMismatch name rule.parameters.length arguments.length)

/-- **A rule, evaluated**, given what happens one level deeper. -/
def step (q : Evaluation) (deeper : Deeper) (e : EntityRef) :
    PermissionRule → Except Failure Bool
  | .relation name => q.holdsName deeper e name
  | .binary .or left right => do
    if ← q.step deeper e left then pure true else q.step deeper e right
  | .binary .and left right => do
    if ← q.step deeper e left then q.step deeper e right else pure false
  | .incomplete op _ => .error (.missingOperand op)
  | .not operand => (q.step deeper e operand).map not
  | .notWith operand _ => (q.step deeper e operand).map not
  | .member relation permission => q.holdsMember deeper e relation permission
  | .inline expression => q.satisfies e expression expression
  | .call name arguments => q.satisfiesRule e name arguments

/-- **A rule, evaluated at a depth.** -/
def evaluateAt (q : Evaluation) (depth : UInt32) : Deeper :=
  descend q.resolver.maxDepth q.step depth

end Evaluation

end Entitlement
