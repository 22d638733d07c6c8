import Entitlement.Access.Check

/-!
# Lookups

On which entities a subject holds a permission, and which subjects hold it
on an entity. A lookup checks its *candidates* one by one, the identifiers
that occur in stored tuples or those of the query, in ascending order. A
candidate that cannot be checked counts as one that is not allowed.

Answers come in pages. A page that is full while candidates are left ends
with a token, the last identifier that was checked, and the next page
starts behind it.
-/

namespace Entitlement

/-- **A page of identifiers**, and where the next one starts. -/
structure Page where
  ids : List String
  next : Option String
  deriving DecidableEq, Repr

/-- **The page of the allowed candidates**, at most `size` of them and at
least one. -/
def scanPage (allowed : String → Except Failure Bool) (size : Nat) :
    List String → Except Failure Page
  | [] => .ok ⟨[], none⟩
  | id :: rest => do
    if ← allowed id then
      if size ≤ 1 then pure ⟨[id], if rest.isEmpty then none else some id⟩
      else
        let page ← scanPage allowed (size - 1) rest
        pure ⟨id :: page.ids, page.next⟩
    else scanPage allowed size rest

/-- The candidates behind a token. -/
def behindToken (token : Option String) (candidates : List String) :
    List String :=
  match token with
  | none => candidates
  | some token => candidates.filter fun id => token < id

namespace Resolver

/-- **The candidates of a lookup**: what the tuples of a filter, stored or
of the query, are read as. -/
def candidates (r : Resolver) (filter : TupleFilter) (contextual : List Tuple)
    (extract : Tuple → Option String) : Except Failure (List String) := do
  let stored ← r.tuples filter
  let tuples := stored ++ contextual.filter filter.admits
  pure (ascending id (tuples.filterMap extract))

/-- The size of a page that is asked for. -/
def pageSize (r : Resolver) (page : PageRequest) : Nat :=
  if page.size = 0 then r.defaultPageSize else page.size

/-- The page of a lookup with its candidates. -/
def scan (r : Resolver) (schema : Schema) (page : PageRequest)
    (candidates : List String) (toCheck : String → CheckRequest) :
    Except Failure Page :=
  scanPage (fun id => Failure.deny false (r.checkInSchema schema (toCheck id)))
    (r.pageSize page) (behindToken page.token candidates)

/-- The entity that a tuple is about is a candidate. -/
def entityCandidate (t : Tuple) : Option String := some t.entityId

/-- The subject of a tuple is a candidate unless it is a userset. -/
def subjectCandidate (t : Tuple) : Option String :=
  if t.isUserset then none else some t.subjectId

/-- **The entities on which the subject holds the permission.** -/
def lookupEntity (r : Resolver) (request : LookupEntityRequest) :
    Except Failure Page := do
  request.validate
  let schema ← r.resolveSchema request.version
  let _ ← findPermission schema request.entityType request.permission
  let candidates ← r.candidates { entityType := some request.entityType }
    request.contextual entityCandidate
  r.scan schema request.page candidates request.toCheck

/-- **The subjects that hold the permission on the entity.** -/
def lookupSubject (r : Resolver) (request : LookupSubjectRequest) :
    Except Failure Page := do
  request.validate
  let schema ← r.resolveSchema request.version
  let _ ← findPermission schema request.entity.type request.permission
  let candidates ← r.candidates { subjectType := some request.subjectType }
    request.contextual subjectCandidate
  r.scan schema request.page candidates request.toCheck

end Resolver

end Entitlement
