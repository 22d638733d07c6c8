import Entitlement.Access.Resolver

/-!
# Expansions

The tree behind a permission: which relations and permissions it comes
from and who holds them, for no subject in particular. Unlike an
evaluation, an expansion looks at stored tuples alone, follows no userset,
and leaves out the parents whose type does not have the permission. The
rules of the schema have no expansion.
-/

namespace Entitlement

/-! ## Trees -/

/-- **Who is behind a permission**, as a tree. -/
inductive ExpandTree
  /-- The holders of any child; `label` is the relation or permission
  whose holders they are. -/
  | union (label : Option String) (children : List ExpandTree)
  /-- The holders of every child. -/
  | intersection (children : List ExpandTree)
  /-- All who are not holders of the child. -/
  | exclusion (child : ExpandTree)
  /-- One subject. -/
  | subject (subject : SubjectRef)
  /-- Whoever satisfies an expression. -/
  | expression (text : String)
  deriving Repr, Inhabited

namespace ExpandTree

/-- The label of the root. -/
def label? : ExpandTree → Option String
  | union label _ => label
  | _ => none

mutual

/-- The number of nodes. -/
def size : ExpandTree → Nat
  | union _ children => 1 + sizeAll children
  | intersection children => 1 + sizeAll children
  | exclusion child => 1 + child.size
  | subject _ => 1
  | expression _ => 1

/-- The number of nodes of many trees. -/
def sizeAll : List ExpandTree → Nat
  | [] => 0
  | t :: ts => t.size + sizeAll ts

end

end ExpandTree

/-! ## Expanding -/

/-- **What stays the same throughout an expansion.** -/
structure Expansion where
  resolver : Resolver
  schema : Schema

namespace Expansion

/-- What happens one level deeper: a rule of an entity is expanded. -/
abbrev Deeper := Descent ExpandTree

/-- The holders of a relation or permission of an entity. -/
def expandName (x : Expansion) (deeper : Deeper) (e : EntityRef)
    (name : String) : Except Failure ExpandTree :=
  match x.schema.entity? e.type with
  | none => .error (.entityNotFound e.type)
  | some entity =>
    match entity.permission? name with
    | some permission => do
      pure (.union name [← deeper e permission.rule])
    | none =>
      match entity.relation? name with
      | none => .error (.relationNotFound e.type name)
      | some _ => do
        let tuples ← x.resolver.tuples (.onRelation e name)
        let holders := ascending SubjectRef.sortKey (tuples.map Tuple.subject)
        pure (.union name (holders.map .subject))

/-- The parents of an entity in ascending order, by stored tuples. -/
def parents (x : Expansion) (e : EntityRef) (relation : Relation) :
    Except Failure (List EntityRef) := do
  let tuples ← x.resolver.tuples (.onRelation e relation.name)
  let direct := tuples.filter fun t =>
    !t.isUserset && relation.directTypes.contains t.subjectType
  pure (ascending EntityRef.sortKey (direct.map Tuple.subjectEntity))

/-- The holders of a permission of a parent, if its type has it. -/
def expandParent (x : Expansion) (deeper : Deeper) (permission : String)
    (parent : EntityRef) : Except Failure (Option ExpandTree) :=
  match x.schema.permission? parent.type permission with
  | none => .ok none
  | some p => do
    let tree ← deeper parent p.rule
    pure (some (.union s!"{parent.type}:{parent.id}#{permission}" [tree]))

/-- **The holders of a permission of any parent.** -/
def expandMember (x : Expansion) (deeper : Deeper) (e : EntityRef)
    (relation permission : String) : Except Failure ExpandTree :=
  match (x.schema.entity? e.type).bind fun entity =>
      entity.relation? relation with
  | none => .error (.relationNotFound e.type relation)
  | some r => do
    let trees ← (← x.parents e r).mapM (x.expandParent deeper permission)
    pure (.union s!"{relation}.{permission}" (trees.filterMap id))

/-- **A rule, expanded**, given what happens one level deeper. -/
def step (x : Expansion) (deeper : Deeper) (e : EntityRef) :
    PermissionRule → Except Failure ExpandTree
  | .relation name => x.expandName deeper e name
  | .binary op left right => do
    let left ← x.step deeper e left
    let right ← x.step deeper e right
    pure <| match op with
      | .or => .union none [left, right]
      | .and => .intersection [left, right]
  | .incomplete op left => do
    let _ ← x.step deeper e left
    throw (.missingOperand op)
  | .not operand => (x.step deeper e operand).map .exclusion
  | .notWith operand _ => (x.step deeper e operand).map .exclusion
  | .member relation permission => x.expandMember deeper e relation permission
  | .inline expression => .ok (.expression expression)
  | .call name arguments =>
    .error (.unsupportedRule (PermissionRule.call name arguments).kind)

/-- **A rule, expanded at a depth.** -/
def expandAt (x : Expansion) (depth : UInt32) : Deeper :=
  descend x.resolver.maxDepth x.step depth

end Expansion

/-- **The tree behind a permission of an entity.** -/
def Resolver.expand (r : Resolver) (request : ExpandRequest) :
    Except Failure ExpandTree := do
  request.validate
  let schema ← r.resolveSchema request.version
  let permission ← findPermission schema request.entity.type request.permission
  Expansion.expandAt ⟨r, schema⟩ 0 request.entity permission.rule

end Entitlement
