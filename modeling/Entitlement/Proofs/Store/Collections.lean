import Entitlement.Proofs.Store.Holding

/-!
# Collections of tuples and attributes

Two collections are kept in an order that is not the one they are read in, or
with something left over that does not show.

* A hash set of tuples (`HashedTuples`) gives them out in whatever order
  their hashes put them. They are sorted whenever they are read. To delete is
  to go through all of them, and to count by how much the set shrinks.
* A tree of attributes (`AttributeTree`) has the entities, and for each a
  tree of its attributes by their names. An entity that loses its last
  attribute by name stays behind with an empty tree.

The one *has* the tuples of a finite set, and the other the values of a
finite map, if they agree on what is there. Whatever the hashes are and
whatever stays behind, both are then read and deleted from as the set and the
map are.
-/

namespace Entitlement

open scoped Tuple.FieldOrder

/-! ## Sets of tuples -/

namespace Tuple

/-- A sorted list has the same tuples. -/
theorem mem_sort_iff {tuples : List Tuple} {t : Tuple} :
    t ∈ sort tuples ↔ t ∈ tuples :=
  (List.mergeSort_perm _ _).mem_iff

/-- **Sorted tuples ascend**, if none is there twice. -/
theorem pairwise_sort {tuples : List Tuple} (h : tuples.Nodup) :
    (sort tuples).Pairwise fun a b => a.sortKey < b.sortKey := by
  have hle : ∀ {a b : Tuple}, decide (¬ b.sortKey < a.sortKey) = true ↔
      a ≤ b := by
    intro a b
    rw [decide_eq_true_eq, sortKey_lt_iff, not_lt]
  have hsorted : (sort tuples).Pairwise fun a b =>
      decide (¬ b.sortKey < a.sortKey) = true := by
    refine List.pairwise_mergeSort (fun a b c hab hbc => ?_) (fun a b => ?_) _
    · exact hle.mpr ((hle.mp hab).trans (hle.mp hbc))
    · rw [Bool.or_eq_true, hle, hle]
      exact le_total a b
  have hnodup : (sort tuples).Nodup :=
    (List.mergeSort_perm _ _).nodup_iff.mpr h
  refine hsorted.imp₂ (fun a b hab hne => ?_) hnodup
  exact sortKey_lt_iff.mpr ((hle.mp hab).lt_of_ne hne)

end Tuple

/-- **A hash set of tuples.** -/
abbrev HashedTuples [Hashable Tuple] := Std.HashSet Tuple

namespace HashedTuples

variable [Hashable Tuple] {stored : HashedTuples} {set : Finset Tuple}

/-- The tuples that a filter admits, sorted. -/
def read (stored : HashedTuples) (filter : TupleFilter) : List Tuple :=
  Tuple.sort (stored.toList.filter filter.admits)

/-- The tuples that a filter does not admit. -/
def without (stored : HashedTuples) (filter : TupleFilter) : HashedTuples :=
  stored.filter fun t => !filter.admits t

/-- **Whether a hash set has the tuples of a set.** -/
def Has (stored : HashedTuples) (set : Finset Tuple) : Prop :=
  ∀ t, t ∈ stored ↔ t ∈ set

theorem nodup_toList (stored : HashedTuples) : stored.toList.Nodup :=
  Std.HashSet.distinct_toList.imp fun h => by simpa using h

theorem Has.toFinset_toList (h : stored.Has set) :
    stored.toList.toFinset = set := by
  ext t
  rw [List.mem_toFinset, Std.HashSet.mem_toList, h t]

/-- A hash set has as many tuples as the set. -/
theorem Has.size_eq_card (h : stored.Has set) : stored.size = set.card := by
  rw [← Std.HashSet.length_toList, ← h.toFinset_toList,
    List.toFinset_card_of_nodup stored.nodup_toList]

theorem Has.eq_empty (h : Has ∅ set) : set = ∅ := by
  refine Finset.eq_empty_of_forall_notMem fun t ht => ?_
  exact Std.HashSet.not_mem_empty ((h t).mpr ht)

theorem Has.insertMany (h : stored.Has set) (batch : List Tuple) :
    Has (stored.insertMany batch) (set ∪ batch.toFinset) := by
  intro t
  rw [Std.HashSet.mem_insertMany_list, h t, Finset.mem_union,
    List.mem_toFinset, List.contains_iff_mem]

theorem Has.without (h : stored.Has set) (filter : TupleFilter) :
    (stored.without filter).Has (set \ set.filter filter.Matches) := by
  intro t
  rw [HashedTuples.without, ← Std.HashSet.mem_toList,
    Std.HashSet.toList_filter.mem_iff, List.mem_filter,
    Std.HashSet.mem_toList, h t, Finset.mem_sdiff, Finset.mem_filter,
    Bool.not_eq_true', ← Bool.not_eq_true, TupleFilter.admits_iff]
  simp +contextual

/-- **A hash set shrinks by what a filter admits.** -/
theorem Has.size_sub_size (h : stored.Has set) (filter : TupleFilter) :
    stored.size - (stored.without filter).size
      = (set.filter filter.Matches).card := by
  have hsub := Finset.card_le_card (Finset.filter_subset filter.Matches set)
  rw [h.size_eq_card, (h.without filter).size_eq_card,
    Finset.card_sdiff_of_subset (Finset.filter_subset _ _)]
  omega

/-- **What a filter admits is read in order**, in whatever order it comes out
of the hash set. -/
theorem Has.read (h : stored.Has set) (filter : TupleFilter) :
    stored.read filter = (set.filter filter.Matches).sort := by
  have hsort := Tuple.pairwise_sort (stored.nodup_toList.filter filter.admits)
  refine eq_of_ascending hsort (Tuple.ascend_sort _) fun t => ?_
  rw [HashedTuples.read, Tuple.mem_sort_iff, List.mem_filter,
    Std.HashSet.mem_toList, h t, Finset.mem_sort, Finset.mem_filter,
    TupleFilter.admits_iff]

end HashedTuples

/-! ## Trees of attributes -/

namespace AttributeValues

variable {values : AttributeValues} {entity : EntityRef}
  {name : Option String} {key : EntityRef × String}

/-- The attributes of an entity that have a value and that a deletion asks
for: the one that is named, or all of them if none is. -/
def asked (values : AttributeValues) (entity : EntityRef)
    (name : Option String) : Finset (EntityRef × String) :=
  values.keys.filter fun key => key.1 = entity ∧ ∀ asked ∈ name, key.2 = asked

theorem mem_asked_iff : key ∈ values.asked entity name ↔
    (values.lookup key).isSome = true ∧ key.1 = entity ∧
      ∀ asked ∈ name, key.2 = asked := by
  rw [asked, Finset.mem_filter, Finmap.mem_keys, Finmap.lookup_isSome]

theorem lookup_without_asked :
    (values.without (values.asked entity name)).lookup key
      = if key.1 = entity ∧ ∀ asked ∈ name, key.2 = asked then none
        else values.lookup key := by
  rw [lookup_without]
  simp only [mem_asked_iff]
  cases values.lookup key <;> simp

theorem without_empty (values : AttributeValues) :
    values.without ∅ = values := by
  refine Finmap.ext_lookup fun key => ?_
  rw [lookup_without, if_neg (Finset.notMem_empty key)]

end AttributeValues

/-- Entities are compared by their types and then by their identifiers. -/
instance : Ord EntityRef where
  compare := compareLex (compareOn EntityRef.type) (compareOn EntityRef.id)

instance : Std.TransOrd EntityRef :=
  inferInstanceAs <| Std.TransCmp <|
    compareLex (compareOn EntityRef.type) (compareOn EntityRef.id)

instance : Std.LawfulEqOrd EntityRef where
  eq_of_compare {a b} h := by
    obtain ⟨_, _⟩ := a
    obtain ⟨_, _⟩ := b
    have hfields := compareLex_eq_eq.mp h
    rw [EntityRef.mk.injEq]
    exact hfields.imp compare_eq_iff_eq.mp compare_eq_iff_eq.mp

/-- **A tree of attributes**, by entity and then by name. -/
abbrev AttributeTree := Std.TreeMap EntityRef (Std.TreeMap String Json)

namespace AttributeTree

/-- The tree with an attribute written over what it had before. -/
def write (tree : AttributeTree) (a : Attribute Json) : AttributeTree :=
  let (entity, name) := a.place
  tree.insert entity ((tree.getD entity ∅).insert name a.value)

/-- The tree without an attribute of an entity, or without the entity if none
is named, and the number of attributes that were deleted. -/
def delete (tree : AttributeTree) (entity : EntityRef)
    (name : Option String) : Nat × AttributeTree :=
  match tree[entity]?, name with
  | none, _ => (0, tree)
  | some values, some name =>
    (if name ∈ values then 1 else 0, tree.insert entity (values.erase name))
  | some values, none => (values.size, tree.erase entity)

/-- The attributes of an entity. -/
def read (tree : AttributeTree) (entity : EntityRef) : List (Attribute Json) :=
  match tree[entity]? with
  | none => []
  | some values => values.toList.map fun (name, value) =>
    ⟨entity.type, entity.id, name, value⟩

/-- The value of an attribute. -/
def value? (tree : AttributeTree) (key : EntityRef × String) : Option Json :=
  (tree.getD key.1 ∅)[key.2]?

/-- **Whether a tree has the attributes that have a value.** -/
def Has (tree : AttributeTree) (values : AttributeValues) : Prop :=
  ∀ key, tree.value? key = values.lookup key

variable {tree : AttributeTree} {values : AttributeValues}

theorem value?_eq_of_some {entity : EntityRef} {own : Std.TreeMap String Json}
    (h : tree[entity]? = some own) (name : String) :
    tree.value? (entity, name) = own[name]? := by
  rw [value?, Std.TreeMap.getD_eq_getD_getElem?, h]
  rfl

theorem value?_eq_of_none {entity : EntityRef} (h : tree[entity]? = none)
    (name : String) : tree.value? (entity, name) = none := by
  rw [value?, Std.TreeMap.getD_eq_getD_getElem?, h]
  exact Std.TreeMap.getElem?_emptyc

theorem value?_insert (tree : AttributeTree) (entity : EntityRef)
    (own : Std.TreeMap String Json) (key : EntityRef × String) :
    value? (tree.insert entity own) key
      = if key.1 = entity then own[key.2]? else tree.value? key := by
  simp only [value?, Std.TreeMap.getD_insert,
    Std.LawfulEqOrd.compare_eq_iff_eq, eq_comm (a := entity)]
  split <;> rfl

theorem value?_erase (tree : AttributeTree) (entity : EntityRef)
    (key : EntityRef × String) :
    value? (tree.erase entity) key
      = if key.1 = entity then none else tree.value? key := by
  simp only [value?, Std.TreeMap.getD_erase,
    Std.LawfulEqOrd.compare_eq_iff_eq, eq_comm (a := entity)]
  split
  · exact Std.TreeMap.getElem?_emptyc
  · rfl

/-- The value that is written takes the place of an earlier one. -/
theorem Has.enter (h : tree.Has values) (a : Attribute Json) :
    (tree.write a).Has (values.enter a) := by
  rintro ⟨entity, name⟩
  rw [AttributeTree.write, value?_insert, AttributeValues.lookup_enter,
    ← h (entity, name)]
  simp only [Attribute.place, Prod.mk.injEq]
  by_cases hentity : entity = ⟨a.entityType, a.entityId⟩
  · subst hentity
    simp only [Std.TreeMap.getElem?_insert,
      Std.LawfulEqOrd.compare_eq_iff_eq, eq_comm (a := name), value?,
      true_and, if_true]
  · simp only [hentity, false_and, if_false]

/-- **A batch of attributes is written one after the other.** -/
theorem Has.write (h : tree.Has values) (batch : List (Attribute Json)) :
    (batch.foldl AttributeTree.write tree).Has
      (batch.foldl AttributeValues.enter values) := by
  induction batch generalizing tree values with
  | nil => exact h
  | cons a batch ih => exact ih (h.enter a)

/-- **The attributes of an entity are read in the order of their names.** -/
theorem Has.read (h : tree.Has values) (entity : EntityRef) :
    tree.read entity = values.ofEntity entity := by
  have hsort : (tree.read entity).Pairwise fun a b => a.name < b.name := by
    unfold AttributeTree.read
    split
    · exact .nil
    · refine List.pairwise_map.mpr ?_
      exact Std.TreeMap.ordered_keys_toList.imp compare_lt_iff_lt.mp
  refine eq_of_ascending hsort (values.pairwise_ofEntity entity) fun a => ?_
  rw [AttributeValues.mem_ofEntity_iff, ← h]
  unfold AttributeTree.read
  split
  next hnone => simp [value?_eq_of_none hnone]
  next own hown =>
    rw [value?_eq_of_some hown, List.mem_map]
    constructor
    · rintro ⟨⟨name, value⟩, hmem, rfl⟩
      exact ⟨rfl, Std.TreeMap.mem_toList_iff_getElem?_eq_some.mp hmem⟩
    · rintro ⟨rfl, hvalue⟩
      exact ⟨(a.name, a.value),
        Std.TreeMap.mem_toList_iff_getElem?_eq_some.mpr hvalue, rfl⟩

/-- **What is deleted is no longer there**, and nothing else. -/
theorem Has.delete (h : tree.Has values) (entity : EntityRef)
    (name : Option String) :
    (tree.delete entity name).2.Has
      (values.without (values.asked entity name)) := by
  rintro ⟨other, n⟩
  rw [AttributeValues.lookup_without_asked, ← h]
  unfold AttributeTree.delete
  split
  next hnone =>
    split
    next hkey => rw [← hkey.1] at hnone; exact value?_eq_of_none hnone n
    next => rfl
  next own name hown =>
    rw [value?_insert, Std.TreeMap.getElem?_erase]
    simp only [Std.LawfulEqOrd.compare_eq_iff_eq, Option.mem_some_iff,
      forall_eq, eq_comm (a := name)]
    by_cases hother : other = entity
    · subst hother
      simp only [true_and, if_true, value?_eq_of_some hown]
    · simp only [hother, false_and, if_false]
  next own hown =>
    rw [value?_erase]
    simp

/-- Nothing of an entity without a tree is asked for. -/
theorem Has.asked_eq_empty (h : tree.Has values) {entity : EntityRef}
    (hnone : tree[entity]? = none) (name : Option String) :
    values.asked entity name = ∅ := by
  refine Finset.eq_empty_of_forall_notMem fun key hkey => ?_
  obtain ⟨hsome, rfl, -⟩ := AttributeValues.mem_asked_iff.mp hkey
  rw [← h key, value?_eq_of_none hnone key.2] at hsome
  cases hsome

section

variable (h : tree.Has values) {entity : EntityRef}
  {own : Std.TreeMap String Json} (hown : tree[entity]? = some own)
include h hown

theorem Has.mem_asked_iff {name : Option String} {key : EntityRef × String} :
    key ∈ values.asked entity name ↔
      key.1 = entity ∧ key.2 ∈ own ∧ ∀ n ∈ name, key.2 = n := by
  rw [AttributeValues.mem_asked_iff, ← h key, and_left_comm]
  refine and_congr_right ?_
  rintro rfl
  rw [value?_eq_of_some hown, Std.TreeMap.isSome_getElem?_iff_mem]

/-- A name asks for one attribute, if the entity has it. -/
theorem Has.card_asked_some (name : String) :
    (values.asked entity (some name)).card = if name ∈ own then 1 else 0 := by
  have hasked : values.asked entity (some name)
      = if name ∈ own then {(entity, name)} else ∅ := by
    ext ⟨other, n⟩
    rw [h.mem_asked_iff hown]
    split
    next hin => aesop
    next hnot => aesop
  rw [hasked]
  split <;> rfl

/-- Without a name all attributes of an entity are asked for. -/
theorem Has.card_asked_none :
    (values.asked entity none).card = own.size := by
  have hasked : values.asked entity none
      = (own.keys.map fun n => (entity, n)).toFinset := by
    ext ⟨other, n⟩
    rw [h.mem_asked_iff hown, List.mem_toFinset, List.mem_map]
    constructor
    · rintro ⟨rfl, hin, -⟩
      exact ⟨n, Std.TreeMap.mem_keys.mpr hin, rfl⟩
    · rintro ⟨_, hin, heq⟩
      cases heq
      exact ⟨rfl, Std.TreeMap.mem_keys.mp hin, by simp⟩
  have hnodup : (own.keys.map fun n => (entity, n)).Nodup :=
    Std.TreeMap.nodup_keys.map fun _ _ h => congrArg Prod.snd h
  rw [hasked, List.toFinset_card_of_nodup hnodup, List.length_map,
    Std.TreeMap.length_keys]

end

/-- **What is deleted is counted.** -/
theorem Has.count_delete (h : tree.Has values) (entity : EntityRef)
    (name : Option String) :
    (tree.delete entity name).1 = (values.asked entity name).card := by
  unfold AttributeTree.delete
  split
  next hnone => rw [h.asked_eq_empty hnone, Finset.card_empty]
  next own asked hown => exact (h.card_asked_some hown asked).symm
  next own hown => exact (h.card_asked_none hown).symm

end AttributeTree

end Entitlement
