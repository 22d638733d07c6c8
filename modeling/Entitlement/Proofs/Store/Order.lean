import Entitlement.Proofs.Ascending
import Entitlement.Store.Basic
import Mathlib.Data.Finset.Sort
import Mathlib.Data.Prod.Lex
import Mathlib.Data.String.Basic
import Mathlib.Order.WithBot

/-!
# The orders that a store reads in

Two orders are seen from outside. Tuples come in the order of their fields,
one field after the other, where a subject relation that is absent stands
below every one that is there (`Tuple.inFieldOrder`). The sort keys that a
store keeps its tuples by are in this order (`Tuple.sortKey_lt_iff`).

Versions of a schema come newest first, by the time that they were written at
and then by their names (`StoredSchema.rank`). The newest version is looked
for in one way and the list of versions is sorted in another; both are made
by the rank alone, so that the newest version is the first of the list
(`StoredSchema.newest?_eq_head?`), at whatever times the versions were
written and in whatever order.
-/

namespace Entitlement

/-! ## Tuples -/

namespace Tuple

/-- **The fields of a tuple in their order.** An absent subject relation is
below all others. -/
def inFieldOrder (t : Tuple) :
    String ×ₗ String ×ₗ String ×ₗ String ×ₗ String ×ₗ WithBot String :=
  toLex (t.entityType, toLex (t.entityId, toLex (t.relation,
    toLex (t.subjectType, toLex (t.subjectId,
      match t.subjectRelation with
      | none => ⊥
      | some relation => (relation : WithBot String))))))

/-- The fields in their order are all there is to a tuple. -/
theorem inFieldOrder_injective : Function.Injective inFieldOrder := by
  rintro ⟨_, _, _, _, _, relation⟩ ⟨_, _, _, _, _, relation'⟩ h
  cases relation <;> cases relation' <;>
    simp_all [inFieldOrder, Prod.ext_iff]

namespace FieldOrder

/-- **Tuples are ordered field by field.** -/
scoped instance : LinearOrder Tuple :=
  LinearOrder.lift' inFieldOrder inFieldOrder_injective

end FieldOrder

open scoped FieldOrder

theorem lt_iff {a b : Tuple} : a < b ↔ a.inFieldOrder < b.inFieldOrder :=
  Iff.rfl

/-- **The sort keys of tuples are in the order of their fields.** -/
theorem sortKey_lt_iff {a b : Tuple} : a.sortKey < b.sortKey ↔ a < b := by
  obtain ⟨_, _, _, _, _, relation⟩ := a
  obtain ⟨_, _, _, _, _, relation'⟩ := b
  rw [lt_iff]
  simp only [sortKey, inFieldOrder, List.cons_append, List.nil_append,
    List.cons_lt_cons_iff, Prod.Lex.toLex_lt_toLex]
  cases relation <;> cases relation' <;>
    simp [List.cons_lt_cons_iff, WithBot.coe_lt_coe]

end Tuple

/-! ## Versions -/

namespace StoredSchema

/-- **What versions are ordered by**: the time that they were written at,
and then their names. -/
def rank (s : StoredSchema) : Int ×ₗ String :=
  toLex (s.createdAt, s.version)

theorem isNewer_iff {a b : StoredSchema} : a.isNewer b = true ↔
    b.rank < a.rank := by
  unfold isNewer rank
  simp only [Bool.or_eq_true, Bool.and_eq_true, decide_eq_true_eq, beq_iff_eq,
    Prod.Lex.toLex_lt_toLex]
  rw [eq_comm (a := a.createdAt)]

/-- Versions of one rank have one name. -/
theorem version_eq_of_rank_eq {a b : StoredSchema} (h : a.rank = b.rank) :
    a.version = b.version := by
  have hpair := congrArg ofLex h
  exact congrArg Prod.snd hpair

/-- The newest of some versions is one of them, and none is above it. -/
theorem newest?_spec {schemas : List StoredSchema} {newest : StoredSchema}
    (h : newest? schemas = some newest) :
    newest ∈ schemas ∧ ∀ s ∈ schemas, s.rank ≤ newest.rank := by
  induction schemas generalizing newest with
  | nil => cases h
  | cons first rest ih =>
    unfold newest? at h
    split at h
    next hnone =>
      cases h
      have hrest : rest = [] := by
        cases rest with
        | nil => rfl
        | cons second rest =>
          unfold newest? at hnone
          split at hnone <;> cases hnone
      subst hrest
      simp
    next t ht =>
      obtain ⟨hmem, hmax⟩ := ih ht
      split at h
      next hnewer =>
        cases h
        have hfirst := (isNewer_iff.mp hnewer).le
        exact ⟨List.mem_cons_of_mem _ hmem,
          List.forall_mem_cons.mpr ⟨hfirst, hmax⟩⟩
      next hnewer =>
        cases h
        rw [isNewer_iff, not_lt] at hnewer
        refine ⟨List.mem_cons_self, List.forall_mem_cons.mpr ⟨le_rfl, ?_⟩⟩
        exact fun s hs => (hmax s hs).trans hnewer

/-- Of some versions one is the newest. -/
theorem newest?_eq_none_iff {schemas : List StoredSchema} :
    newest? schemas = none ↔ schemas = [] := by
  cases schemas with
  | nil => simp [newest?]
  | cons first rest =>
    unfold newest?
    split <;> simp

/-- To sort versions is not to lose any. -/
theorem perm_newestFirst (schemas : List StoredSchema) :
    (newestFirst schemas).Perm schemas :=
  List.mergeSort_perm _ _

/-- **Sorted versions descend in rank.** -/
theorem pairwise_newestFirst (schemas : List StoredSchema) :
    (newestFirst schemas).Pairwise fun a b => b.rank ≤ a.rank := by
  have hle : ∀ {a b : StoredSchema}, (!b.isNewer a) = true ↔
      b.rank ≤ a.rank := by
    intro a b
    rw [Bool.not_eq_true', ← Bool.not_eq_true, isNewer_iff, not_lt]
  have hsorted : (newestFirst schemas).Pairwise fun a b =>
      (!b.isNewer a) = true := by
    refine List.pairwise_mergeSort (fun a b c hab hbc => ?_) (fun a b => ?_) _
    · exact hle.mpr ((hle.mp hbc).trans (hle.mp hab))
    · rw [Bool.or_eq_true, hle, hle]
      exact le_total _ _
  exact hsorted.imp hle.mp

variable {schemas : List StoredSchema}

/-- Where names are distinct, so are ranks. -/
theorem eq_of_rank_eq (h : (schemas.map version).Nodup) {a b : StoredSchema}
    (ha : a ∈ schemas) (hb : b ∈ schemas) (hrank : a.rank = b.rank) : a = b :=
  List.inj_on_of_nodup_map h ha hb (version_eq_of_rank_eq hrank)

/-- Sorted versions have the same names. -/
theorem nodup_newestFirst (h : (schemas.map version).Nodup) :
    ((newestFirst schemas).map version).Nodup :=
  ((perm_newestFirst schemas).map version).nodup_iff.mpr h

/-- **Where names are distinct, no two versions are of one rank.** -/
theorem pairwise_newestFirst_of_nodup (h : (schemas.map version).Nodup) :
    (newestFirst schemas).Pairwise fun a b => b.rank < a.rank := by
  have hnames := List.pairwise_map.mp (nodup_newestFirst h)
  refine (pairwise_newestFirst schemas).imp₂ (fun a b hle hne => ?_) hnames
  exact hle.lt_of_ne fun hrank => hne (version_eq_of_rank_eq hrank.symm)

/-- **The newest version is the first of the sorted ones.** -/
theorem newest?_eq_head? (h : (schemas.map version).Nodup) :
    newest? schemas = (newestFirst schemas).head? := by
  have hperm := perm_newestFirst schemas
  have hsorted := pairwise_newestFirst schemas
  cases hlist : newestFirst schemas with
  | nil =>
    rw [hlist, List.nil_perm] at hperm
    exact newest?_eq_none_iff.mpr hperm
  | cons first rest =>
    rw [hlist] at hperm hsorted
    have hfirst : first ∈ schemas := hperm.subset List.mem_cons_self
    cases hnewest : newest? schemas with
    | none =>
      rw [newest?_eq_none_iff.mp hnewest] at hfirst
      exact absurd hfirst List.not_mem_nil
    | some newest =>
      obtain ⟨hmem, hmax⟩ := newest?_spec hnewest
      have hle : newest.rank ≤ first.rank := by
        rcases List.mem_cons.mp (hperm.symm.subset hmem) with rfl | hrest
        · exact le_rfl
        · exact (List.pairwise_cons.mp hsorted).1 newest hrest
      -- each is below the other, and a rank belongs to one version
      have hrank := hle.antisymm (hmax first hfirst)
      exact congrArg some (eq_of_rank_eq h hmem hfirst hrank)

end StoredSchema

end Entitlement
