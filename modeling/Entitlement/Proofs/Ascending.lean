import Entitlement.Tuple

/-!
# What an ascending list holds

An ascending list is made by inserting its elements one by one, and an
element replaces one of the same key, so the list is strictly ascending
(`pairwise_ascending`). If different elements have different keys, then
nothing is ever lost: the list holds exactly what went into it
(`mem_ascending_iff`), and so it depends on nothing else
(`ascending_eq_of_mem_iff`). Texts, entities and subjects are of this
kind, since their sort keys list all their fields.
-/

namespace Entitlement

variable {α κ : Type} [LT κ] [DecidableLT κ]

/-- **A key that tells all elements apart.** -/
def IsFaithfulKey (key : α → κ) : Prop :=
  ∀ x y, ¬key x < key y → ¬key y < key x → x = y

/-- A faithful key never replaces an element by another. -/
theorem mem_insertBy_iff {key : α → κ} (hk : IsFaithfulKey key) {x z : α}
    {xs : List α} : z ∈ insertBy key x xs ↔ z = x ∨ z ∈ xs := by
  refine ⟨eq_or_mem_of_mem_insertBy, ?_⟩
  rintro (rfl | h)
  · exact mem_insertBy_self key z xs
  · induction xs with
    | nil => exact absurd h List.not_mem_nil
    | cons y ys ih =>
      unfold insertBy
      split
      · exact List.mem_cons_of_mem x h
      · split
        · rcases List.mem_cons.mp h with rfl | h
          · exact List.mem_cons_self
          · exact List.mem_cons_of_mem y (ih h)
        next hxy hyx =>
          rw [hk x y hxy hyx]
          exact h

/-- Nothing but what is inserted comes in. -/
theorem mem_or_mem_of_mem_insertAllBy {key : α → κ} {z : α}
    {base xs : List α} (h : z ∈ insertAllBy key base xs) :
    z ∈ base ∨ z ∈ xs := by
  induction xs generalizing base with
  | nil => exact Or.inl h
  | cons x xs ih =>
    rcases ih h with h | h
    · rcases eq_or_mem_of_mem_insertBy h with rfl | h
      · exact Or.inr List.mem_cons_self
      · exact Or.inl h
    · exact Or.inr (List.mem_cons_of_mem x h)

/-- Inserting many elements adds these and no others. -/
theorem mem_insertAllBy_iff {key : α → κ} (hk : IsFaithfulKey key) {z : α}
    {base xs : List α} :
    z ∈ insertAllBy key base xs ↔ z ∈ base ∨ z ∈ xs := by
  induction xs generalizing base with
  | nil => simp
  | cons x xs ih =>
    rw [insertAllBy_cons, ih, mem_insertBy_iff hk, List.mem_cons]
    constructor
    · rintro ((h | h) | h)
      · exact Or.inr (Or.inl h)
      · exact Or.inl h
      · exact Or.inr (Or.inr h)
    · rintro (h | h | h)
      · exact Or.inl (Or.inr h)
      · exact Or.inl (Or.inl h)
      · exact Or.inr h

/-- **An ascending list holds what went into it.** -/
theorem mem_ascending_iff {key : α → κ} (hk : IsFaithfulKey key) {z : α}
    {xs : List α} : z ∈ ascending key xs ↔ z ∈ xs := by
  rw [ascending, mem_insertAllBy_iff hk]
  simp

/-! ## The order -/

omit [DecidableLT κ] in
/-- A list that ascends holds everything once. -/
theorem nodup_of_ascending [Std.Asymm (· < · : κ → κ → Prop)] {key : α → κ}
    {xs : List α} (h : xs.Pairwise fun a b => key a < key b) : xs.Nodup := by
  refine h.imp fun {a b} hab => ?_
  rintro rfl
  exact Std.Asymm.asymm _ _ hab hab

omit [DecidableLT κ] in
/-- **Two lists that ascend are one if they hold the same.** -/
theorem eq_of_ascending [Std.Asymm (· < · : κ → κ → Prop)] {key : α → κ}
    {xs ys : List α} (hxs : xs.Pairwise fun a b => key a < key b)
    (hys : ys.Pairwise fun a b => key a < key b)
    (h : ∀ z, z ∈ xs ↔ z ∈ ys) : xs = ys := by
  have hasymm : ∀ {a b : α}, key a < key b → ¬key b < key a :=
    fun hab => Std.Asymm.asymm _ _ hab
  refine List.Perm.eq_of_pairwise (fun a b _ _ hab hba => ?_) hxs hys ?_
  · exact absurd hba (hasymm hab)
  · exact (List.perm_ext_iff_of_nodup (nodup_of_ascending hxs)
      (nodup_of_ascending hys)).mpr h

/-- Of two elements with one key that are inserted, the later one stays. -/
theorem insertBy_insertBy [Std.Irrefl (· < · : κ → κ → Prop)] {key : α → κ}
    {x y : α} (hkey : key y = key x) (xs : List α) :
    insertBy key y (insertBy key x xs) = insertBy key y xs := by
  have hirrefl : ¬key x < key x := Std.Irrefl.irrefl _
  induction xs with
  | nil => simp [insertBy, hkey, hirrefl]
  | cons z zs ih =>
    by_cases hxz : key x < key z
    · simp [insertBy, hkey, hxz, hirrefl]
    · by_cases hzx : key z < key x
      · simp [insertBy, hkey, hxz, hzx, ih]
      · simp [insertBy, hkey, hxz, hzx, hirrefl]

section Order

variable [Trans (· < · : κ → κ → Prop) (· < · : κ → κ → Prop)
    (· < · : κ → κ → Prop)]
  [Std.Trichotomous (· < · : κ → κ → Prop)]

/-- What is inserted comes to stand in its place. -/
theorem pairwise_insertBy {key : α → κ} {x : α} {xs : List α}
    (h : xs.Pairwise fun a b => key a < key b) :
    (insertBy key x xs).Pairwise fun a b => key a < key b := by
  induction xs with
  | nil => exact List.pairwise_singleton _ x
  | cons y ys ih =>
    obtain ⟨hy, hys⟩ := List.pairwise_cons.mp h
    unfold insertBy
    split
    next hxy =>
      refine List.pairwise_cons.mpr ⟨fun z hz => ?_, h⟩
      rcases List.mem_cons.mp hz with rfl | hz
      · exact hxy
      · exact Trans.trans hxy (hy z hz)
    next hxy =>
      split
      next hyx =>
        refine List.pairwise_cons.mpr ⟨fun z hz => ?_, ih hys⟩
        rcases eq_or_mem_of_mem_insertBy hz with rfl | hz
        · exact hyx
        · exact hy z hz
      next hyx =>
        -- the two have one key, so `x` takes the place of `y`
        have heq : key x = key y := Std.Trichotomous.trichotomous _ _ hxy hyx
        rw [← heq] at hy
        exact List.pairwise_cons.mpr ⟨hy, hys⟩

/-- **What is inserted replaces what has its key**, and nothing else. -/
theorem mem_insertBy_iff_of_ascending
    [Std.Asymm (· < · : κ → κ → Prop)] {key : α → κ} {x z : α} {xs : List α}
    (h : xs.Pairwise fun a b => key a < key b) :
    z ∈ insertBy key x xs ↔ z = x ∨ z ∈ xs ∧ key z ≠ key x := by
  have hne : ∀ {k l : κ}, k < l → l ≠ k := by
    rintro k _ hlt rfl
    exact Std.Asymm.asymm _ _ hlt hlt
  induction xs with
  | nil => simp
  | cons y ys ih =>
    obtain ⟨hy, hys⟩ := List.pairwise_cons.mp h
    unfold insertBy
    split
    next hxy =>
      -- all keys of the list are above that of `x`
      have habove : ∀ w ∈ y :: ys, key w ≠ key x := by
        rintro w hw
        rcases List.mem_cons.mp hw with rfl | hw
        · exact hne hxy
        · exact hne (Trans.trans hxy (hy w hw))
      rw [List.mem_cons, and_iff_left_of_imp (habove z)]
    next hxy =>
      split
      next hyx =>
        have hkey : z = y → key z ≠ key x := by
          rintro rfl
          exact (hne hyx).symm
        have hih : z ∈ insertBy key x ys ↔ z = x ∨ z ∈ ys ∧ key z ≠ key x :=
          ih hys
        rw [List.mem_cons, List.mem_cons, hih, or_and_right,
          and_iff_left_of_imp hkey, or_left_comm]
      next hyx =>
        -- the two have one key, so `x` takes the place of `y`
        have heq : key x = key y := Std.Trichotomous.trichotomous _ _ hxy hyx
        have hkey : z ∈ ys → key z ≠ key x := fun hz => heq ▸ hne (hy z hz)
        have hgone : ¬(z = y ∧ key z ≠ key x) := by
          rintro ⟨rfl, hzx⟩
          exact hzx heq.symm
        rw [List.mem_cons, List.mem_cons, or_and_right,
          and_iff_left_of_imp hkey, or_iff_right hgone]

theorem pairwise_insertAllBy {key : α → κ} {base xs : List α}
    (h : base.Pairwise fun a b => key a < key b) :
    (insertAllBy key base xs).Pairwise fun a b => key a < key b := by
  induction xs generalizing base with
  | nil => exact h
  | cons x xs ih => exact ih (pairwise_insertBy h)

/-- **An ascending list ascends.** -/
theorem pairwise_ascending (key : α → κ) (xs : List α) :
    (ascending key xs).Pairwise fun a b => key a < key b :=
  pairwise_insertAllBy List.Pairwise.nil

/-- **An ascending list is made by which elements go into it**, in whatever
order and however often. -/
theorem ascending_eq_of_mem_iff [Std.Asymm (· < · : κ → κ → Prop)]
    {key : α → κ} (hk : IsFaithfulKey key) {xs ys : List α}
    (h : ∀ z, z ∈ xs ↔ z ∈ ys) : ascending key xs = ascending key ys := by
  refine eq_of_ascending (pairwise_ascending key xs)
    (pairwise_ascending key ys) fun z => ?_
  rw [mem_ascending_iff hk, mem_ascending_iff hk, h]

end Order

/-! ## Tables -/

namespace Table

variable {β : Type}

/-- Names that get values have these, and the others keep what they had. -/
theorem find?_insertAllBy_map (f : String → β) (base : Table β)
    (names : List String) (name : String) :
    find? (insertAllBy Prod.fst base (names.map fun n => (n, f n))) name
      = if name ∈ names then some (f name) else base.find? name := by
  induction names generalizing base with
  | nil => rfl
  | cons first rest ih =>
    rw [List.map_cons, insertAllBy_cons, ih]
    show (if name ∈ rest then some (f name)
      else (base.insert first (f first)).find? name) = _
    by_cases hrest : name ∈ rest
    · rw [if_pos hrest, if_pos (List.mem_cons_of_mem first hrest)]
    · rw [if_neg hrest]
      by_cases hfirst : name = first
      · subst hfirst
        rw [find?_insert_self, if_pos List.mem_cons_self]
      · rw [find?_insert_of_ne base _ hfirst,
          if_neg (List.not_mem_cons_of_ne_of_not_mem hfirst hrest)]

/-- **A table of the values of some names has these, and no others.** -/
theorem find?_ofPairs_map (f : String → β) (names : List String)
    (name : String) :
    (ofPairs (names.map fun n => (n, f n))).find? name
      = if name ∈ names then some (f name) else none :=
  find?_insertAllBy_map f [] names name

end Table

/-! ## Faithful keys -/

/-- Texts are told apart by themselves. -/
theorem isFaithfulKey_text : IsFaithfulKey (id : String → String) :=
  fun _ _ => Table.eq_of_not_lt

/-- Lists of texts of which neither comes first are one. -/
theorem eq_of_not_lt_texts {a b : List String} (h₁ : ¬a < b) (h₂ : ¬b < a) :
    a = b :=
  List.le_antisymm (List.not_lt.mp h₂) (List.not_lt.mp h₁)

/-- Entities are told apart by their sort keys. -/
theorem EntityRef.isFaithfulKey : IsFaithfulKey EntityRef.sortKey := by
  rintro ⟨type, id⟩ ⟨type', id'⟩ h₁ h₂
  have h := eq_of_not_lt_texts h₁ h₂
  simpa [EntityRef.sortKey] using h

/-- Tuples are told apart by their sort keys. -/
theorem Tuple.isFaithfulKey : IsFaithfulKey Tuple.sortKey := by
  rintro ⟨_, _, _, _, _, relation⟩ ⟨_, _, _, _, _, relation'⟩ h₁ h₂
  have h := eq_of_not_lt_texts h₁ h₂
  cases relation <;> cases relation' <;> simp_all [Tuple.sortKey]

/-- Subjects are told apart by their sort keys. -/
theorem SubjectRef.isFaithfulKey : IsFaithfulKey SubjectRef.sortKey := by
  rintro ⟨type, id, relation⟩ ⟨type', id', relation'⟩ h₁ h₂
  have h := eq_of_not_lt_texts h₁ h₂
  cases relation <;> cases relation' <;>
    simp_all [SubjectRef.sortKey]

end Entitlement
