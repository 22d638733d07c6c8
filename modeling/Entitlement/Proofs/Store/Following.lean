import Entitlement.Proofs.Outcome
import Entitlement.Proofs.Store.Ledger

/-!
# To follow a ledger

What keeps the records of tenants, in whatever form, *follows* them at a
request if it replies as the records do, keeps the records behind the
request, and goes on keeping what is recorded for other tenants
(`Store.Follows`). What follows its records at every request replies to all
requests in a row as a ledger does (`Store.replies_eq_of_follows`).

Checks come before a change. What they find is the fault of what is to be
written, and so the refusals agree from the start
(`Tuple.checkFields_eq_refuse`, `Attribute.checkFields_eq_refuse`).
-/

namespace Entitlement

open Outcome

/-! ## Faults -/

theorem refuse_or (a b : Option StoreError) :
    refuse (a.or b) = (refuse a >>= fun _ => refuse b) := by
  cases a <;> rfl

theorem findSome?_cons_eq_or {α β : Type} (f : α → Option β) (x : α)
    (xs : List α) : (x :: xs).findSome? f = (f x).or (xs.findSome? f) := by
  rw [List.findSome?_cons]
  cases f x <;> rfl

/-- The first fault of some elements is what is found by checking them one
after the other. -/
theorem forM_eq_refuse {α : Type} {check : α → Except StoreError Unit}
    {fault? : α → Option StoreError} (h : ∀ x, check x = refuse (fault? x))
    (xs : List α) : xs.forM check = refuse (xs.findSome? fault?) := by
  induction xs with
  | nil => rfl
  | cons x xs ih =>
    show (check x >>= fun _ => xs.forM check) = _
    rw [ih, h, findSome?_cons_eq_or, refuse_or]

theorem checkIdentifier_eq_refuse (field value : String) :
    checkIdentifier field value = refuse (identifierFault? field value) := by
  unfold checkIdentifier identifierFault?
  simp only [String.isEmpty_iff]
  split
  · rfl
  · split <;> rfl

theorem checkIdentifiers_eq_refuse (fields : List (String × String)) :
    checkIdentifiers fields
      = refuse (fields.findSome? fun p => identifierFault? p.1 p.2) := by
  induction fields with
  | nil => rfl
  | cons first rest ih =>
    obtain ⟨field, value⟩ := first
    rw [checkIdentifiers, ih, checkIdentifier_eq_refuse, findSome?_cons_eq_or,
      refuse_or]

theorem Store.checkTenant_eq_refuse (tenant : String) :
    checkTenant tenant = refuse (identifierFault? "tenant_id" tenant) :=
  checkIdentifier_eq_refuse "tenant_id" tenant

/-- **A tuple is refused for its fault.** -/
theorem Tuple.checkFields_eq_refuse (t : Tuple) :
    t.checkFields = refuse t.fault? := by
  obtain ⟨_, _, _, _, _, relation⟩ := t
  unfold checkFields fault?
  rw [checkIdentifiers_eq_refuse]
  cases relation <;>
    simp [findSome?_cons_eq_or]

/-- **An attribute is refused for its fault.** -/
theorem Attribute.checkFields_eq_refuse (a : Attribute Json) :
    a.checkFields = refuse a.fault? := by
  obtain ⟨_, _, name, value⟩ := a
  unfold checkFields fault?
  simp only [checkIdentifiers_eq_refuse, findSome?_cons_eq_or,
    List.findSome?_nil, Option.or_none, Option.orElse_eq_orElse,
    Option.orElse_eq_or, ← Option.or_assoc]
  conv_rhs => rw [refuse_or]
  cases value <;> rfl

/-! ## Requests -/

namespace Store

/-- What corresponds and stays so replies alike to requests in a row. -/
theorem replies_eq_of_related {σ τ : Type} {R : σ → τ → Prop}
    {f : σ → String × Request → Except StoreError (Reply × σ)}
    {g : τ → String × Request → Except StoreError (Reply × τ)}
    (hstep : ∀ {s t}, R s t → ∀ request,
      Related (fun x y => x.1 = y.1 ∧ R x.2 y.2) (f s request) (g t request))
    {s : σ} {t : τ} (h : R s t) (requests : List (String × Request)) :
    replies f s requests = replies g t requests := by
  induction requests generalizing s t with
  | nil => rfl
  | cons request rest ih =>
    have hrelated := hstep h request
    unfold replies
    generalize f s request = x, g t request = y at hrelated
    cases hrelated with
    | error e => exact congrArg _ (ih h)
    | ok hxy =>
      obtain ⟨hreply, hnext⟩ := hxy
      exact congrArg₂ List.cons (congrArg Except.ok hreply) (ih hnext)

section

variable {σ : Type} {Holds : σ → String → Records → Prop} {s : σ}
  {tenant : String} {r : Records}

/-- **Whether what holds the records of tenants follows those of one of
them**: it replies as they do, holds what they have become, and goes on
holding what is recorded for others. -/
structure Follows (Holds : σ → String → Records → Prop) (s : σ)
    (tenant : String) (x : Reply × σ) (y : Reply × Records) : Prop where
  reply : x.1 = y.1
  holds : Holds x.2 tenant y.2
  others : ∀ other, other ≠ tenant → ∀ r, Holds s other r → Holds x.2 other r

/-- To change nothing is to follow records that do not change. -/
theorem follows_self (h : Holds s tenant r) (reply : Reply) :
    Follows Holds s tenant (reply, s) (reply, r) :=
  ⟨rfl, h, fun _ _ _ => id⟩

/-- A request that is refused for a fault, and follows the records if there
is none, follows them altogether. -/
theorem related_refuse {fault? : Option StoreError}
    {x : Except StoreError (Reply × σ)}
    {y : Except StoreError (Reply × Records)}
    (h : Related (Follows Holds s tenant) x y) :
    Related (Follows Holds s tenant) (refuse fault? >>= fun _ => x)
      (refuse fault? >>= fun _ => y) :=
  Related.bind (.refl _) fun _ => h

variable {perform : σ → String × Request → Except StoreError (Reply × σ)}
  (hfollows : ∀ {s : σ} {tenant : String} {r : Records}, Holds s tenant r →
    ∀ request, Related (Follows Holds s tenant) (perform s (tenant, request))
      (r.perform tenant request))
include hfollows

/-- **What follows the records of each tenant follows a ledger.** -/
theorem related_ledger {l : Ledger} (h : ∀ tenant, Holds s tenant (l tenant))
    (request : String × Request) :
    Related (fun x y => x.1 = y.1 ∧ ∀ tenant, Holds x.2 tenant (y.2 tenant))
      (perform s request) (l.perform request) := by
  obtain ⟨tenant, request⟩ := request
  have hstep := hfollows (h tenant) request
  simp only [Ledger.perform]
  generalize perform s (tenant, request) = x,
    (l tenant).perform tenant request = y at hstep
  cases hstep with
  | error e => exact .error e
  | @ok x y hxy =>
    refine .ok ⟨hxy.reply, fun other => ?_⟩
    show Holds x.2 other (Function.update l tenant y.2 other)
    by_cases hother : other = tenant
    · subst hother
      rw [Function.update_self]
      exact hxy.holds
    · rw [Function.update_of_ne hother]
      exact hxy.others other hother _ (h other)

/-- **What follows its records replies as a ledger** to requests in a row,
if there is nothing in the records at first. -/
theorem replies_eq_of_follows (h : ∀ tenant, Holds s tenant {})
    (requests : List (String × Request)) :
    replies perform s requests
      = replies Ledger.perform (fun _ => {}) requests :=
  replies_eq_of_related (R := fun s l => ∀ tenant, Holds s tenant (l tenant))
    (related_ledger hfollows) h requests

end

end Store

end Entitlement
