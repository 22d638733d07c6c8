import Entitlement.Proofs.Store.Following
import Entitlement.Proofs.Store.Holding

/-!
# A store is a ledger

A store keeps lists in ascending order, writes into them element by element
and takes them apart at a deletion. To those who ask it, it is the ledger of
`Entitlement.Proofs.Store.Ledger`: whatever it is asked, in whatever order
and for whatever tenants, it replies as the ledger does and refuses what the
ledger refuses, for the same reason (`Store.replies_eq_ledger`).

What is kept for the tenant of a request goes on holding what is recorded for
it, and nothing is changed for the others (`Store.follows_perform`). So a
store that keeps a ledger does so behind every request
(`Store.related_perform`), and a new store keeps the empty ledger.
-/

namespace Entitlement

open Outcome

namespace Store

variable {s : Store} {tenant : String} {r : Records}

/-- Whether a store holds what is recorded for a tenant. -/
def Holds (s : Store) (tenant : String) (r : Records) : Prop :=
  (s.tenant tenant).Holds r

/-- To write what holds the records is to follow them. -/
theorem follows_setTenant {data : TenantData} (h : data.Holds r)
    (reply : Reply) :
    Follows Holds s tenant (reply, s.setTenant tenant data) (reply, r) where
  reply := rfl
  holds := by
    rw [Holds, tenant_setTenant_self]
    exact h
  others other hother r hr := by
    rw [Holds, tenant_setTenant_of_ne s data hother]
    exact hr

section

variable (h : s.Holds tenant r)
include h

/-! ### Requests that write -/

theorem follows_writeSchema (schema : StoredSchema) :
    Related (Follows Holds s tenant) (s.perform (tenant, .writeSchema schema))
      (r.perform tenant (.writeSchema schema)) := by
  simp only [perform, Records.perform, writeSchema, checkTenant_eq_refuse,
    checkIdentifier_eq_refuse, Option.orElse_eq_orElse, Option.orElse_eq_or,
    refuse_or, bind_assoc]
  refine related_refuse (related_refuse ?_)
  have htaken : ((s.tenant tenant).schemas.any fun t =>
      t.version == schema.version) = true ↔
        schema.version ∈ r.versions.map StoredSchema.version := by
    rw [h.versions]
    simp
  by_cases hnew : schema.version ∈ r.versions.map StoredSchema.version
  · rw [if_pos (htaken.mpr hnew), dif_pos hnew]
    exact .error _
  · rw [if_neg (htaken.not.mpr hnew), dif_neg hnew]
    exact .ok (follows_setTenant (h.addVersion schema hnew) .done)

theorem follows_writeTuples (tuples : List Tuple) :
    Related (Follows Holds s tenant) (s.perform (tenant, .writeTuples tuples))
      (r.perform tenant (.writeTuples tuples)) := by
  simp only [perform, Records.perform, writeTuples, checkTenant_eq_refuse,
    forM_eq_refuse Tuple.checkFields_eq_refuse, Option.orElse_eq_orElse,
    Option.orElse_eq_or, refuse_or, bind_assoc]
  refine related_refuse (related_refuse ?_)
  have hwritten := h.withTuples (h.tuples.write tuples)
  exact .ok (follows_setTenant hwritten .done)

theorem follows_deleteTuples (filter : TupleFilter) :
    Related (Follows Holds s tenant) (s.perform (tenant, .deleteTuples filter))
      (r.perform tenant (.deleteTuples filter)) := by
  simp only [perform, Records.perform, deleteTuples, checkTenant_eq_refuse,
    Option.orElse_eq_orElse, Option.orElse_eq_or, refuse_or, bind_assoc,
    TupleFilter.isEmpty_iff, List.partition_eq_filter_filter]
  refine related_refuse ?_
  split
  next => exact .error _
  next =>
    have hleft := h.withTuples (h.tuples.delete filter)
    rw [h.tuples.read filter, Finset.length_sort]
    exact .ok (follows_setTenant hleft _)

theorem follows_writeAttributes (attributes : List (Attribute Json)) :
    Related (Follows Holds s tenant)
      (s.perform (tenant, .writeAttributes attributes))
      (r.perform tenant (.writeAttributes attributes)) := by
  simp only [perform, Records.perform, writeAttributes, checkTenant_eq_refuse,
    forM_eq_refuse Attribute.checkFields_eq_refuse, Option.orElse_eq_orElse,
    Option.orElse_eq_or, refuse_or, bind_assoc]
  refine related_refuse (related_refuse ?_)
  have hwritten := h.withAttributes (h.attributes.write attributes)
  exact .ok (follows_setTenant hwritten .done)

theorem follows_deleteAttributes (entity : EntityRef) (name : Option String) :
    Related (Follows Holds s tenant)
      (s.perform (tenant, .deleteAttributes entity name))
      (r.perform tenant (.deleteAttributes entity name)) := by
  simp only [perform, Records.perform, deleteAttributes,
    List.partition_eq_filter_filter]
  set gone := r.attributes.keys.filter fun key =>
    key.1 = entity ∧ ∀ asked ∈ name, key.2 = asked with hgone
  -- what is taken out of the list is what has one of the keys to go
  have hp : ∀ a ∈ (s.tenant tenant).attributes,
      (a.isOf entity && agrees name a.name) = true ↔ a.place ∈ gone := by
    intro a ha
    have hkey : a.place ∈ r.attributes.keys := Finmap.mem_keys.mpr
      (Finmap.mem_of_lookup_eq_some ((h.attributes.mem_iff a).mp ha))
    rw [hgone, Finset.mem_filter, Bool.and_eq_true, Attribute.isOf_iff,
      agrees_iff, and_iff_right hkey]
    rfl
  have hleft := h.withAttributes (h.attributes.delete hp)
  rw [h.attributes.length_filter (Finset.filter_subset _ _) hp]
  exact .ok (follows_setTenant hleft _)

/-! ### Requests that read -/

theorem follows_readSchema (version : String) :
    Related (Follows Holds s tenant) (s.perform (tenant, .readSchema version))
      (r.perform tenant (.readSchema version)) := by
  have hfind : ((s.tenant tenant).schemas.find? fun t => t.version == version)
      = r.version? version := by
    rw [h.versions]
    rfl
  simp only [perform, Records.perform, readSchema, hfind]
  cases r.version? version with
  | none => exact .error _
  | some schema => exact .ok (follows_self h _)

theorem follows_latestSchema :
    Related (Follows Holds s tenant) (s.perform (tenant, .latestSchema))
      (r.perform tenant .latestSchema) := by
  simp only [perform, Records.perform, latestSchema, h.versions,
    r.newest?_eq_latest?]
  cases r.latest? with
  | none => exact .error _
  | some schema => exact .ok (follows_self h _)

/-- **Every request about a tenant is replied to from its records.** -/
theorem follows_perform (request : Request) :
    Related (Follows Holds s tenant) (s.perform (tenant, request))
      (r.perform tenant request) := by
  cases request with
  | writeSchema schema => exact follows_writeSchema h schema
  | readSchema version => exact follows_readSchema h version
  | latestSchema => exact follows_latestSchema h
  | schemaVersions =>
    refine .ok ?_
    rw [schemaVersions, h.versions, r.map_newestFirst_eq_versionNames]
    exact follows_self h _
  | writeTuples tuples => exact follows_writeTuples h tuples
  | deleteTuples filter => exact follows_deleteTuples h filter
  | readTuples filter =>
    refine .ok ?_
    rw [readTuples, h.tuples.read filter]
    exact follows_self h _
  | writeAttributes attributes => exact follows_writeAttributes h attributes
  | deleteAttributes entity name => exact follows_deleteAttributes h entity name
  | readAttributes entity =>
    refine .ok ?_
    rw [readAttributes, h.attributes.read entity]
    exact follows_self h _

end

end Store

/-! ## Stores and ledgers -/

/-- Whether a store keeps what a ledger records. -/
def Ledger.IsKeptIn (l : Ledger) (s : Store) : Prop :=
  ∀ tenant, (s.tenant tenant).Holds (l tenant)

namespace Store

/-- A new store keeps an empty ledger. -/
theorem isKeptIn_new : Ledger.IsKeptIn (fun _ => {}) {} :=
  fun _ => TenantData.holds_empty

/-- **A store replies to a request as its ledger does**, and keeps the ledger
behind the request. -/
theorem related_perform {s : Store} {l : Ledger} (h : l.IsKeptIn s)
    (request : String × Request) :
    Related (fun x y => x.1 = y.1 ∧ y.2.IsKeptIn x.2) (s.perform request)
      (l.perform request) :=
  related_ledger follows_perform h request

/-- **A store is a ledger**: it replies to all requests in a row, for
whatever tenants, as a ledger does, and refuses the same for the same
reasons. -/
theorem replies_eq_ledger (requests : List (String × Request)) :
    replies perform ({} : Store) requests
      = replies Ledger.perform (fun _ => {}) requests :=
  replies_eq_of_follows follows_perform isKeptIn_new requests

end Store

end Entitlement
