import Entitlement.Proofs.Access.Descent
import Entitlement.Proofs.Ascending

/-!
# Many permissions at once

A check of many permissions answers with a table. `Resolver.holdsOne` is
what one of them comes to, where a failure is a denial, and the table gives
it for every permission that was asked for (`Resolver.find?_of_checkEach`).
There is a table unless one of the checks takes too long
(`Resolver.exists_checkEach`), and it tells what single checks answer
(`Resolver.exists_tells`).
-/

namespace Entitlement

/-- **Whether a table tells which of some permissions are held**, of each of
them once and of no others. -/
structure Table.Tells (table : Table Bool) (permissions : List String)
    (held : String → Prop) : Prop where
  ascending : (table.map Prod.fst).Pairwise (· < ·)
  names : ∀ name, (table.find? name).isSome ↔ name ∈ permissions
  held : ∀ name ∈ permissions, table.find? name = some true ↔ held name

theorem Table.Tells.congr {table : Table Bool} {permissions : List String}
    {held held' : String → Prop} (h : table.Tells permissions held)
    (hheld : ∀ name, held name ↔ held' name) :
    table.Tells permissions held' where
  ascending := h.ascending
  names := h.names
  held name hname := (h.held name hname).trans (hheld name)

namespace Resolver

variable {r : Resolver} {schema : Schema} {request : String → CheckRequest}
  {permissions : List String} {table : Table Bool}

/-- **Whether one of many permissions is held**, where a failure is a
denial. -/
def holdsOne (r : Resolver) (schema : Schema) (request : CheckRequest) :
    Bool :=
  (r.checkOne schema request).toOption.getD false

/-- **None but what a check allows is held.** -/
theorem holdsOne_eq_true_iff {request : CheckRequest} :
    r.holdsOne schema request = true ↔
      request.validate = .ok () ∧
        r.checkInSchema schema request = .ok true := by
  have hone : r.holdsOne schema request = true ↔
      r.checkOne schema request = .ok true := by
    unfold holdsOne
    cases r.checkOne schema request with
    | ok b => simp [Except.toOption]
    | error f => simp [Except.toOption]
  rw [hone, checkOne, Failure.deny_eq_ok_true_iff, Outcome.bind_eq_ok_iff]
  constructor
  · rintro ⟨⟨⟩, hv, h⟩
    exact ⟨hv, h⟩
  · rintro ⟨hv, h⟩
    exact ⟨(), hv, h⟩

/-- In a schema that is there, a check is answered if it has no blank field
and the schema answers it. -/
theorem check_eq_ok_iff {request : CheckRequest} {b : Bool}
    (hs : r.resolveSchema request.version = .ok schema) :
    r.check request = .ok b ↔
      request.validate = .ok () ∧ r.checkInSchema schema request = .ok b := by
  unfold check
  simp only [Outcome.bind_eq_ok_iff, hs]
  constructor
  · rintro ⟨⟨⟩, hv, schema', hs', h⟩
    cases hs'
    exact ⟨hv, h⟩
  · rintro ⟨hv, h⟩
    exact ⟨(), hv, schema, rfl, h⟩

/-- A table is made if every one of the checks is answered. -/
theorem checkEach_eq (h : ∀ name ∈ permissions, ∃ b,
      r.checkOne schema (request name) = .ok b) :
    r.checkEach schema request permissions
      = .ok (Table.ofPairs (permissions.map fun name =>
          (name, r.holdsOne schema (request name)))) := by
  have hone : ∀ name ∈ permissions,
      (do pure (name, ← r.checkOne schema (request name)))
        = Except.ok (ε := Failure)
            (name, r.holdsOne schema (request name)) := by
    intro name hname
    obtain ⟨b, hb⟩ := h name hname
    unfold holdsOne
    rw [hb]
    rfl
  unfold checkEach
  rw [Outcome.mapM_eq_ok_map hone]
  rfl

/-- **The table gives what each of the permissions comes to**, and no
others. -/
theorem find?_of_checkEach
    (h : r.checkEach schema request permissions = .ok table) (name : String) :
    table.find? name
      = if name ∈ permissions then some (r.holdsOne schema (request name))
        else none := by
  have hchecked : ∀ name ∈ permissions, ∃ b,
      r.checkOne schema (request name) = .ok b := by
    obtain ⟨answers, hanswers, -⟩ := Outcome.bind_eq_ok_iff.mp h
    intro name hname
    obtain ⟨_, hpair⟩ := Outcome.forall_exists_of_mapM hanswers name hname
    obtain ⟨b, hb, -⟩ := Outcome.bind_eq_ok_iff.mp hpair
    exact ⟨b, hb⟩
  cases (checkEach_eq hchecked).symm.trans h
  exact Table.find?_ofPairs_map _ permissions name

/-- **A resolver in time makes a table.** -/
theorem exists_checkEach (hr : r.InTime) (schema : Schema)
    (request : String → CheckRequest) (permissions : List String) :
    ∃ table, r.checkEach schema request permissions = .ok table := by
  refine ⟨_, checkEach_eq fun name _ => Failure.exists_deny ?_⟩
  intro milliseconds h
  rcases Outcome.bind_eq_error_iff.mp h with h | ⟨_, -, h⟩
  · -- a blank field is no matter of time
    unfold CheckRequest.validate requireFields at h
    split at h
    · cases h
    · cases h
  · exact checkInSchema_ne_timeout hr schema (request name) milliseconds h

/-- **Nothing but time leaves permissions without a table.** -/
theorem exists_of_checkEach_eq_error {f : Failure}
    (h : r.checkEach schema request permissions = .error f) :
    ∃ milliseconds, f = .timeout milliseconds := by
  rcases Outcome.bind_eq_error_iff.mp h with h | ⟨answers, -, h⟩
  · obtain ⟨name, -, h⟩ := Outcome.exists_of_mapM_eq_error h
    rcases Outcome.bind_eq_error_iff.mp h with h | ⟨b, -, h⟩
    · exact Failure.exists_of_deny_eq_error h
    · cases h
  · cases h

/-- The names in a table ascend. -/
theorem pairwise_of_checkEach
    (h : r.checkEach schema request permissions = .ok table) :
    (table.map Prod.fst).Pairwise (· < ·) := by
  obtain ⟨answers, -, h⟩ := Outcome.bind_eq_ok_iff.mp h
  cases h
  exact List.pairwise_map.mpr (pairwise_ascending Prod.fst answers)

/-- **What the table tells of a permission is what its check answers**, if
both mean the same schema. -/
theorem tells_of_checkEach {version : Option String}
    (hs : r.resolveSchema version = .ok schema)
    (hversion : ∀ name, (request name).version = version)
    (h : r.checkEach schema request permissions = .ok table) :
    table.Tells permissions fun name => r.check (request name) = .ok true where
  ascending := pairwise_of_checkEach h
  names name := by
    rw [find?_of_checkEach h]
    by_cases hname : name ∈ permissions <;> simp [hname]
  held name hname := by
    rw [find?_of_checkEach h, if_pos hname, Option.some.injEq,
      holdsOne_eq_true_iff, check_eq_ok_iff (hversion name ▸ hs)]

/-- **In time there is such a table.** -/
theorem exists_tells {version : Option String}
    (hs : r.resolveSchema version = .ok schema)
    (hversion : ∀ name, (request name).version = version)
    (htime : ∀ milliseconds, r.checkEach schema request permissions
      ≠ .error (.timeout milliseconds)) :
    ∃ table, r.checkEach schema request permissions = .ok table ∧
      table.Tells permissions fun name =>
        r.check (request name) = .ok true := by
  cases htable : r.checkEach schema request permissions with
  | ok table => exact ⟨table, rfl, tells_of_checkEach hs hversion htable⟩
  | error f =>
    obtain ⟨milliseconds, rfl⟩ := exists_of_checkEach_eq_error htable
    exact absurd htable (htime milliseconds)

/-- A check of many permissions makes its table in the schema that it
means. -/
theorem checkMultiple_eq_ok_iff {request : CheckRequest} :
    r.checkMultiple request permissions = .ok table ↔
      ∃ schema, r.resolveSchema request.version = .ok schema ∧
        r.checkEach schema (fun permission => { request with permission })
          permissions = .ok table :=
  Outcome.bind_eq_ok_iff

/-- All permissions of a subject are those that the entity type
declares. -/
theorem subjectPermission_eq_ok_iff {request : SubjectPermissionRequest} :
    r.subjectPermission request = .ok table ↔
      request.validate = .ok () ∧
        ∃ schema, r.resolveSchema request.version = .ok schema ∧
          ∃ entity, schema.entity? request.entity.type = some entity ∧
            r.checkEach schema request.toCheck
              (entity.permissions.map Permission.name) = .ok table := by
  unfold subjectPermission
  simp only [Outcome.bind_eq_ok_iff]
  constructor
  · rintro ⟨⟨⟩, hv, schema, hs, h⟩
    split at h
    next => cases h
    next entity he => exact ⟨hv, schema, hs, entity, he, h⟩
  · rintro ⟨hv, schema, hs, entity, he, h⟩
    refine ⟨(), hv, schema, hs, ?_⟩
    simp only [he]
    exact h

end Resolver

end Entitlement
