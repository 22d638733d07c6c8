import Mathlib.Data.List.Nodup
import Entitlement.Ordered

/-!
# Looking up by a name that occurs once

Declarations and stored versions are looked up by their names, and the first
of a name is found. Where the names are distinct, there is only one to find:
the lookup finds whatever has the name (`find?_eq_some_iff_of_nodup`), and to
ask something of what has the name is to ask it of what is found
(`exists_iff_of_find?`).
-/

namespace Entitlement

variable {α : Type} {key : α → String} {xs : List α} {name : String}

/-- **Where names are distinct, looking up a name finds what has it.** -/
theorem find?_eq_some_iff_of_nodup (h : (xs.map key).Nodup) {x : α} :
    xs.find? (fun y => key y == name) = some x ↔ x ∈ xs ∧ key x = name := by
  constructor
  · intro hfind
    exact ⟨List.mem_of_find?_eq_some hfind, by simpa using List.find?_some hfind⟩
  · rintro ⟨hmem, rfl⟩
    induction xs with
    | nil => exact absurd hmem List.not_mem_nil
    | cons first rest ih =>
      rw [List.map_cons, List.nodup_cons] at h
      obtain ⟨hfirst, hrest⟩ := h
      rcases List.mem_cons.mp hmem with rfl | hmem
      · exact List.find?_cons_of_pos (beq_self_eq_true _)
      · have hne : (key first == key x) = false := by
          rw [beq_eq_false_iff_ne]
          intro heq
          exact hfirst (heq ▸ List.mem_map_of_mem hmem)
        rw [List.find?_cons, hne]
        exact ih hrest hmem

/-- **Something of a name has a property exactly if what is found has it.** -/
theorem exists_iff_of_find? (h : (xs.map key).Nodup) {x : α}
    (hfind : xs.find? (fun y => key y == name) = some x) (P : α → Prop) :
    (∃ y ∈ xs, key y = name ∧ P y) ↔ P x := by
  constructor
  · rintro ⟨y, hy, hname, hP⟩
    cases hfind.symm.trans ((find?_eq_some_iff_of_nodup h).mpr ⟨hy, hname⟩)
    exact hP
  · intro hP
    obtain ⟨hmem, hname⟩ := (find?_eq_some_iff_of_nodup h).mp hfind
    exact ⟨x, hmem, hname, hP⟩

/-- So it is in a table. -/
theorem Table.find?_eq_some_iff_mem {t : Table α}
    (h : (t.map Prod.fst).Nodup) {value : α} :
    t.find? name = some value ↔ (name, value) ∈ t := by
  unfold find?
  induction t with
  | nil => simp
  | cons first rest ih =>
    obtain ⟨other, first⟩ := first
    rw [List.map_cons, List.nodup_cons] at h
    obtain ⟨hfirst, hrest⟩ := h
    rw [List.lookup_cons]
    by_cases hname : name = other
    · subst hname
      have habsent : (name, value) ∉ rest := fun hmem =>
        hfirst (List.mem_map.mpr ⟨_, hmem, rfl⟩)
      simp [habsent, eq_comm]
    · rw [beq_eq_false_iff_ne.mpr hname]
      simp [ih hrest, hname]

/-- Nothing of a name has a property if nothing is found. -/
theorem not_exists_of_find? (hfind : xs.find? (fun y => key y == name) = none)
    (P : α → Prop) : ¬ ∃ y ∈ xs, key y = name ∧ P y := by
  rintro ⟨y, hy, hname, -⟩
  have hne := List.find?_eq_none.mp hfind y hy
  exact hne (beq_iff_eq.mpr hname)

end Entitlement
