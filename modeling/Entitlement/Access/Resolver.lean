import Entitlement.Access.Request

/-!
# What queries are answered from

A `Resolver` holds what the queries of one tenant read, the schemas, the
tuples, the attributes and the truth of expressions, and the limits they
keep to. Everything that it reads is a function, so the queries are the
same whether the reads come from a store, by way of a cache, or fail.

Queries that follow permissions count how deep they have come, and
`descend` is the counting that they share.
-/

namespace Entitlement

/-- **What the queries of a tenant are answered from.** -/
structure Resolver where
  /-- The depth that no evaluation passes. -/
  maxDepth : UInt32
  /-- The size of a page if a lookup leaves it open. -/
  defaultPageSize : Nat
  /-- The schema of a version, or the latest. -/
  schema : Option String → Except Failure Schema
  /-- The stored tuples that a filter admits. -/
  tuples : TupleFilter → Except Failure (List Tuple)
  /-- The attributes of an entity. -/
  attributes : EntityRef → Except Failure Attributes
  /-- The truth value of an expression. -/
  holds : String → ConditionContext → Except ConditionError Bool

namespace Resolver

/-- The schema that a query means. -/
def resolveSchema (r : Resolver) (version : Option String) :
    Except Failure Schema :=
  r.schema (versionMeant version)

/-- The permission that a query names, in the schema that it means. -/
def findPermission (schema : Schema) (entityType permission : String) :
    Except Failure Permission :=
  match schema.entity? entityType with
  | none => .error (.entityNotFound entityType)
  | some entity =>
    match entity.permission? permission with
    | none => .error (.permissionNotFound entityType permission)
    | some p => .ok p

end Resolver

/-! ## Descents -/

/-- The depth behind a depth, as far as 32 bits go. -/
def nextDepth? (depth : UInt32) : Option UInt32 :=
  if depth < 0xFFFFFFFF then some (depth + 1) else none

theorem toNat_of_nextDepth? {depth next : UInt32}
    (h : nextDepth? depth = some next) : next.toNat = depth.toNat + 1 := by
  unfold nextDepth? at h
  split at h
  next hlt =>
    cases h
    have hlt : depth.toNat < 0xFFFFFFFF := hlt
    rw [UInt32.toNat_add]
    exact Nat.mod_eq_of_lt (Nat.succ_lt_succ hlt)
  next => cases h

/-- What rules of entities come to. -/
abbrev Descent (α : Type) := EntityRef → PermissionRule → Except Failure α

/-- **A descent that counts its depth.** Beyond the limit a rule is too deep.
At any other depth it comes to what `step` makes of the next depth, and
whatever asks for the depth behind the greatest one overflows. -/
def descend {α : Type} (limit : UInt32) (step : Descent α → Descent α)
    (depth : UInt32) : Descent α := fun e rule =>
  if limit < depth then .error (.depthExceeded limit.toNat)
  else
    step (match _h : nextDepth? depth with
      | none => fun _ _ => .error .depthOverflow
      | some next => descend limit step next) e rule
termination_by 0x100000000 - depth.toNat
decreasing_by
  have hnext := toNat_of_nextDepth? ‹_›
  have hlt := next.toNat_lt
  omega

end Entitlement
