import Entitlement.Failure
import Entitlement.Store.Basic

/-!
# Reading the store for queries

Queries read tuples and attributes through these functions, which can be
made to fail: `ReadFaults` says which reads do. A query has its time as a
whole, so tuples that do not arrive before the time is over end the query
with a timeout, and no read has a limit of its own. A stored value that is
no attribute value is passed over.
-/

namespace Entitlement

/-- **How reads are disturbed.** -/
structure ReadFaults where
  /-- Why tuples cannot be read. -/
  tuples : Option String := none
  /-- Why attributes cannot be read. -/
  attributes : Option String := none
  /-- Whether tuples do not arrive before the time of a query is over. -/
  stalled : Bool := false
  deriving DecidableEq, Repr

/-- What a read comes to if there may be a reason why it fails. -/
def unlessFaulty {α : Type} (reason : Option String) (read : α) :
    Except Failure α :=
  match reason with
  | none => .ok read
  | some reason => .error (.ofStoreError (.unreadable reason))

namespace Store

/-- **The tuples that a filter admits, for a query** that as a whole may
take `timeout` milliseconds, or as long as it likes. -/
def queryTuples (s : Store) (faults : ReadFaults) (timeout : Option Nat)
    (tenant : String) (filter : TupleFilter) : Except Failure (List Tuple) :=
  match timeout, faults.stalled with
  | some limit, true => .error (.timeout limit)
  | _, _ => unlessFaulty faults.tuples (s.readTuples tenant filter)

/-- The values of stored attributes that are attribute values. -/
def attributeValues (attributes : List (Attribute Json)) : Attributes :=
  attributes.filterMap fun a =>
    (AttributeValue.ofJson? a.value).map fun v => (a.name, v)

/-- **The attributes of an entity, for a query.** -/
def queryAttributes (s : Store) (faults : ReadFaults) (tenant : String)
    (entity : EntityRef) : Except Failure Attributes :=
  unlessFaulty faults.attributes
    (attributeValues (s.readAttributes tenant entity))

end Store

end Entitlement
