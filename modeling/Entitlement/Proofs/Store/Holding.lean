import Entitlement.Proofs.Store.Ledger

/-!
# Lists that hold what is recorded

A store keeps the tuples of a tenant and the attributes of its entities in
lists. A list of tuples stands for a set (`ListsTuples`) and a list of
attributes for a finite map (`ListsAttributes`) if it ascends and has the
same elements. Inserting, filtering and taking apart such lists is then
adding to the set or the map, reading from it and removing from it, and the
length of what is taken out is the number of elements removed.

What is kept for a tenant *holds* the records of the tenant if its lists
stand for them and the versions of its schema are the same
(`TenantData.Holds`).
-/

namespace Entitlement

open scoped Tuple.FieldOrder

/-! ## Filters -/

theorem agrees_iff {asked : Option String} {value : String} :
    agrees asked value = true ↔ ∀ v ∈ asked, value = v := by
  cases asked with
  | none => simp [agrees]
  | some v => simp [agrees, eq_comm (a := v)]

theorem TupleFilter.admits_iff {f : TupleFilter} {t : Tuple} :
    f.admits t = true ↔ f.Matches t := by
  simp only [admits, Matches, Bool.and_eq_true, agrees_iff, and_assoc]

theorem TupleFilter.isEmpty_iff {f : TupleFilter} :
    f.isEmpty = true ↔ f = {} := by
  obtain ⟨_, _, _, _, _⟩ := f
  simp [isEmpty, and_assoc]

/-! ## Tuples -/

/-- The tuples of a set come in the order of their sort keys. -/
theorem Tuple.ascend_sort (set : Finset Tuple) :
    set.sort.Pairwise fun a b => a.sortKey < b.sortKey :=
  (Finset.sortedLT_sort _).pairwise.imp sortKey_lt_iff.mpr

/-- **Whether a list has the tuples of a set in their order.** -/
structure ListsTuples (tuples : List Tuple) (set : Finset Tuple) : Prop where
  mem_iff : ∀ t, t ∈ tuples ↔ t ∈ set
  ascend : tuples.Pairwise fun a b => a.sortKey < b.sortKey

namespace ListsTuples

variable {tuples : List Tuple} {set : Finset Tuple}

/-- **A batch is added to a set of tuples.** -/
theorem write (h : ListsTuples tuples set) (batch : List Tuple) :
    ListsTuples (insertAllBy Tuple.sortKey tuples batch)
      (set ∪ batch.toFinset) where
  mem_iff t := by
    rw [mem_insertAllBy_iff Tuple.isFaithfulKey, h.mem_iff, Finset.mem_union,
      List.mem_toFinset]
  ascend := pairwise_insertAllBy h.ascend

/-- **What a filter admits is read in order**, each tuple once. -/
theorem read (h : ListsTuples tuples set) (filter : TupleFilter) :
    tuples.filter filter.admits = (set.filter filter.Matches).sort := by
  refine eq_of_ascending (h.ascend.filter _) (Tuple.ascend_sort _) fun t => ?_
  rw [List.mem_filter, Finset.mem_sort, Finset.mem_filter, h.mem_iff,
    TupleFilter.admits_iff]

/-- **What a filter admits is deleted**, and nothing else. -/
theorem delete (h : ListsTuples tuples set) (filter : TupleFilter) :
    ListsTuples (tuples.filter fun t => !filter.admits t)
      (set \ set.filter filter.Matches) where
  mem_iff t := by
    rw [List.mem_filter, Finset.mem_sdiff, Finset.mem_filter, h.mem_iff,
      Bool.not_eq_true', ← Bool.not_eq_true, TupleFilter.admits_iff]
    simp +contextual
  ascend := h.ascend.filter _

end ListsTuples

/-! ## Attributes -/

theorem Attribute.place_eq_iff {a b : Attribute Json} :
    a.place = b.place ↔ a.sortKey = b.sortKey := by
  simp [place, sortKey, and_assoc]

theorem Attribute.isOf_iff {entity : EntityRef} {a : Attribute Json} :
    a.isOf entity = true ↔
      (⟨a.entityType, a.entityId⟩ : EntityRef) = entity := by
  obtain ⟨_, _⟩ := entity
  simp [isOf]

/-- Attributes of one place differ in their values alone. -/
theorem Attribute.eq_iff_value {a b : Attribute Json}
    (h : a.place = b.place) : a = b ↔ b.value = a.value := by
  obtain ⟨_, _, _, _⟩ := a
  obtain ⟨_, _, _, _⟩ := b
  simp_all [place, eq_comm]

/-- **Whether a list has the attributes that have a value**, in the order of
their places. -/
structure ListsAttributes (attributes : List (Attribute Json))
    (values : AttributeValues) : Prop where
  mem_iff : ∀ a, a ∈ attributes ↔ values.lookup a.place = some a.value
  ascend : attributes.Pairwise fun a b => a.sortKey < b.sortKey

namespace ListsAttributes

variable {attributes : List (Attribute Json)} {values : AttributeValues}

/-- The value that is written takes the place of an earlier one. -/
theorem enter (h : ListsAttributes attributes values) (a : Attribute Json) :
    ListsAttributes (insertBy Attribute.sortKey a attributes)
      (values.enter a) where
  mem_iff b := by
    rw [mem_insertBy_iff_of_ascending h.ascend, h.mem_iff,
      AttributeValues.lookup_enter, ne_eq, ← Attribute.place_eq_iff]
    split
    next hplace =>
      have heq : b = a ↔ a.value = b.value := Attribute.eq_iff_value hplace
      simp [heq, hplace]
    next hplace =>
      have hne : b ≠ a := by
        rintro rfl
        exact hplace rfl
      simp [hne, hplace]
  ascend := pairwise_insertBy h.ascend

/-- **A batch of attributes is entered one after the other.** -/
theorem write (h : ListsAttributes attributes values)
    (batch : List (Attribute Json)) :
    ListsAttributes (insertAllBy Attribute.sortKey attributes batch)
      (batch.foldl AttributeValues.enter values) := by
  induction batch generalizing attributes values with
  | nil => exact h
  | cons a batch ih => exact ih (h.enter a)

/-- **The attributes of an entity are read in the order of their names.** -/
theorem read (h : ListsAttributes attributes values) (entity : EntityRef) :
    attributes.filter (Attribute.isOf entity) = values.ofEntity entity := by
  have hsort : (values.ofEntity entity).Pairwise fun a b =>
      a.sortKey < b.sortKey := by
    refine (values.pairwise_ofEntity entity).imp_of_mem fun ha hb hab => ?_
    have hentity := (AttributeValues.mem_ofEntity_iff.mp ha).1.trans
      (AttributeValues.mem_ofEntity_iff.mp hb).1.symm
    rw [EntityRef.mk.injEq] at hentity
    simp [Attribute.sortKey, List.cons_lt_cons_iff, hentity, hab]
  refine eq_of_ascending (h.ascend.filter _) hsort fun a => ?_
  rw [List.mem_filter, AttributeValues.mem_ofEntity_iff, h.mem_iff,
    Attribute.isOf_iff, and_comm]
  refine and_congr_right fun hentity => ?_
  rw [Attribute.place, hentity]

/-- **What is removed is no longer there**, and nothing else. -/
theorem delete (h : ListsAttributes attributes values)
    {p : Attribute Json → Bool} {gone : Finset (EntityRef × String)}
    (hp : ∀ a ∈ attributes, p a = true ↔ a.place ∈ gone) :
    ListsAttributes (attributes.filter fun a => !p a)
      (values.without gone) where
  mem_iff a := by
    rw [List.mem_filter, AttributeValues.lookup_without,
      Bool.not_eq_true', ← Bool.not_eq_true]
    constructor
    · rintro ⟨hmem, hkeep⟩
      rw [hp a hmem] at hkeep
      rw [if_neg hkeep, ← h.mem_iff]
      exact hmem
    · intro hlookup
      split at hlookup
      next => cases hlookup
      next hkeep =>
        have hmem := (h.mem_iff a).mpr hlookup
        exact ⟨hmem, by rwa [hp a hmem]⟩
  ascend := h.ascend.filter _

/-- **What is removed is counted.** -/
theorem length_filter (h : ListsAttributes attributes values)
    {p : Attribute Json → Bool} {gone : Finset (EntityRef × String)}
    (hgone : gone ⊆ values.keys)
    (hp : ∀ a ∈ attributes, p a = true ↔ a.place ∈ gone) :
    (attributes.filter p).length = gone.card := by
  have hnodup : ((attributes.filter p).map Attribute.place).Nodup := by
    rw [List.Nodup, List.pairwise_map]
    refine (h.ascend.filter p).imp fun hab hplace => ?_
    rw [Attribute.place_eq_iff] at hplace
    exact lt_irrefl _ (hplace ▸ hab)
  have hset : ((attributes.filter p).map Attribute.place).toFinset = gone := by
    ext key
    rw [List.mem_toFinset, List.mem_map]
    constructor
    · rintro ⟨a, ha, rfl⟩
      obtain ⟨hmem, ha⟩ := List.mem_filter.mp ha
      exact (hp a hmem).mp ha
    · intro hkey
      obtain ⟨value, hvalue⟩ := Finmap.mem_iff.mp
        (Finmap.mem_keys.mp (hgone hkey))
      have hmem : (⟨key.1.type, key.1.id, key.2, value⟩ : Attribute Json)
          ∈ attributes := (h.mem_iff _).mpr hvalue
      exact ⟨_, List.mem_filter.mpr ⟨hmem, (hp _ hmem).mpr hkey⟩, rfl⟩
  rw [← hset, List.toFinset_card_of_nodup hnodup, List.length_map]

end ListsAttributes

/-! ## Versions -/

namespace Records

variable (r : Records)

/-- **The newest version is the one that no other is above.** -/
theorem newest?_eq_latest? :
    StoredSchema.newest? r.versions = r.latest? := by
  unfold latest?
  cases hnewest : StoredSchema.newest? r.versions with
  | none =>
    rw [StoredSchema.newest?_eq_none_iff.mp hnewest]
    rfl
  | some newest =>
    obtain ⟨hmem, hmax⟩ := StoredSchema.newest?_spec hnewest
    have hsome : (r.versions.find? fun s =>
        decide (∀ t ∈ r.versions, t.rank ≤ s.rank)).isSome = true :=
      List.find?_isSome.mpr ⟨newest, hmem, decide_eq_true hmax⟩
    obtain ⟨latest, hlatest⟩ := Option.isSome_iff_exists.mp hsome
    rw [hlatest]
    have hmem' := List.mem_of_find?_eq_some hlatest
    have hmax' : ∀ t ∈ r.versions, t.rank ≤ latest.rank := by
      simpa using List.find?_some hlatest
    have hrank := (hmax' newest hmem).antisymm (hmax latest hmem')
    exact congrArg some
      (StoredSchema.eq_of_rank_eq r.distinct hmem hmem' hrank)

/-- **The names of sorted versions are those from the highest rank on.** -/
theorem map_newestFirst_eq_versionNames :
    (StoredSchema.newestFirst r.versions).map StoredSchema.version
      = r.versionNames := by
  have hperm : ((StoredSchema.newestFirst r.versions).map
      StoredSchema.rank).Perm (r.versions.map StoredSchema.rank) :=
    (StoredSchema.perm_newestFirst r.versions).map _
  have hnodup : (r.versions.map StoredSchema.rank).Nodup := by
    have hnames := r.distinct
    rw [List.Nodup, List.pairwise_map] at hnames ⊢
    exact hnames.imp fun hne hrank =>
      hne (StoredSchema.version_eq_of_rank_eq hrank)
  have hsorted : ((StoredSchema.newestFirst r.versions).map
      StoredSchema.rank).Pairwise (· ≥ ·) :=
    List.pairwise_map.mpr (StoredSchema.pairwise_newestFirst r.versions)
  unfold versionNames
  rw [← List.toFinset_eq_of_perm _ _ hperm,
    (List.toFinset_sort (· ≥ ·) (hperm.nodup_iff.mpr hnodup)).mpr hsorted,
    List.map_map]
  rfl

end Records

/-! ## What is kept for a tenant -/

/-- **Whether what is kept for a tenant is what is recorded.** -/
structure TenantData.Holds (data : TenantData) (r : Records) : Prop where
  versions : data.schemas = r.versions
  tuples : ListsTuples data.tuples r.tuples
  attributes : ListsAttributes data.attributes r.attributes

namespace TenantData

variable {data : TenantData} {r : Records}

/-- Nothing is kept where nothing is recorded. -/
theorem holds_empty : ({} : TenantData).Holds {} where
  versions := rfl
  tuples := ⟨by simp, List.Pairwise.nil⟩
  attributes := ⟨by simp, List.Pairwise.nil⟩

theorem Holds.addVersion (h : data.Holds r) (schema : StoredSchema)
    (hnew : schema.version ∉ r.versions.map StoredSchema.version) :
    Holds { data with schemas := data.schemas ++ [schema] }
      (r.addVersion schema hnew) where
  versions := congrArg (· ++ [schema]) h.versions
  tuples := h.tuples
  attributes := h.attributes

theorem Holds.withTuples (h : data.Holds r) {tuples : List Tuple}
    {set : Finset Tuple} (ht : ListsTuples tuples set) :
    Holds { data with tuples } { r with tuples := set } where
  versions := h.versions
  tuples := ht
  attributes := h.attributes

theorem Holds.withAttributes (h : data.Holds r)
    {attributes : List (Attribute Json)} {values : AttributeValues}
    (ha : ListsAttributes attributes values) :
    Holds { data with attributes } { r with attributes := values } where
  versions := h.versions
  tuples := h.tuples
  attributes := ha

end TenantData

end Entitlement
