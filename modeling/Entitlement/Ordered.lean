/-!
# Ascending lists

Answers list tuples, identifiers and names in ascending order, each once.
The library keeps such a collection as a plain list that is strictly
ascending in a **sort key**: `insertBy key x xs` puts `x` in its place and
replaces an element of the same key, and `ascending key xs` collects a
list in any order.

A *table* is the case where the elements are pairs and the key is the
first component: inserting a pair then overwrites the value of its name,
so the last write wins. Keys are text, ordered byte by byte, or lists of
texts, ordered lexicographically with a proper beginning first.
-/

namespace Entitlement

variable {α β κ : Type}

section Ascending

variable [LT κ] [DecidableLT κ]

/-- **Insertion into an ascending list.** An element with the same key is
replaced. -/
def insertBy (key : α → κ) (x : α) : List α → List α
  | [] => [x]
  | y :: ys =>
    if key x < key y then x :: y :: ys
    else if key y < key x then y :: insertBy key x ys
    else x :: ys

/-- The elements of `xs` added one by one to the ascending list `base`;
of two elements with the same key the later one stays. -/
def insertAllBy (key : α → κ) (base xs : List α) : List α :=
  xs.foldl (fun acc x => insertBy key x acc) base

/-- **The ascending list** with the elements of `xs`. -/
def ascending (key : α → κ) (xs : List α) : List α :=
  insertAllBy key [] xs

@[simp] theorem insertBy_nil (key : α → κ) (x : α) :
    insertBy key x [] = [x] := rfl

@[simp] theorem insertAllBy_nil (key : α → κ) (base : List α) :
    insertAllBy key base [] = base := rfl

@[simp] theorem insertAllBy_cons (key : α → κ) (base : List α) (x : α)
    (xs : List α) :
    insertAllBy key base (x :: xs) = insertAllBy key (insertBy key x base) xs :=
  rfl

/-- What is inserted is there. -/
theorem mem_insertBy_self (key : α → κ) (x : α) (xs : List α) :
    x ∈ insertBy key x xs := by
  induction xs with
  | nil => simp
  | cons y ys ih =>
    unfold insertBy
    split
    · exact List.mem_cons_self
    · split
      · exact List.mem_cons_of_mem _ ih
      · exact List.mem_cons_self

/-- Nothing else comes in with it. -/
theorem eq_or_mem_of_mem_insertBy {key : α → κ} {x z : α} {xs : List α}
    (h : z ∈ insertBy key x xs) : z = x ∨ z ∈ xs := by
  induction xs with
  | nil => exact Or.inl (List.mem_singleton.mp h)
  | cons y ys ih =>
    unfold insertBy at h
    split at h
    · exact List.mem_cons.mp h
    · split at h
      · rcases List.mem_cons.mp h with rfl | h
        · exact Or.inr List.mem_cons_self
        · exact (ih h).imp id (List.mem_cons_of_mem y)
      · exact (List.mem_cons.mp h).imp id (List.mem_cons_of_mem y)

end Ascending

/-! ## Tables -/

/-- A finite map from names to values, as pairs in ascending order of the
names. -/
abbrev Table (α : Type) := List (String × α)

namespace Table

/-- The value of a name. -/
def find? (t : Table α) (name : String) : Option α :=
  List.lookup name t

/-- The table with one value written; an earlier value of the name is
overwritten. -/
def insert (t : Table α) (name : String) (value : α) : Table α :=
  insertBy Prod.fst (name, value) t

/-- The table of a list of pairs in any order; the last value of a name
wins. -/
def ofPairs (pairs : List (String × α)) : Table α :=
  ascending Prod.fst pairs

/-- A table holds none but the pairs that it is made of. -/
theorem mem_of_mem_ofPairs {pairs : List (String × α)} {p : String × α}
    (h : p ∈ ofPairs pairs) : p ∈ pairs := by
  suffices ∀ base : List (String × α), p ∈ insertAllBy Prod.fst base pairs →
      p ∈ base ∨ p ∈ pairs from (this [] h).resolve_left (by simp)
  clear h
  induction pairs with
  | nil => exact fun base h => Or.inl h
  | cons first rest ih =>
    intro base h
    rcases ih _ h with h | h
    · rcases eq_or_mem_of_mem_insertBy h with rfl | h
      · exact Or.inr List.mem_cons_self
      · exact Or.inl h
    · exact Or.inr (List.mem_cons_of_mem _ h)

/-- Names of which neither comes first are one. -/
theorem eq_of_not_lt {a b : String} (h₁ : ¬a < b) (h₂ : ¬b < a) : a = b :=
  String.le_antisymm (String.not_lt.mp h₂) (String.not_lt.mp h₁)

/-- **A name has the value that was written last.** -/
@[simp] theorem find?_insert_self (t : Table α) (name : String) (value : α) :
    (t.insert name value).find? name = some value := by
  unfold insert find?
  induction t with
  | nil => simp
  | cons pair t ih =>
    obtain ⟨first, _⟩ := pair
    unfold insertBy
    split
    · simp
    · split
      next h =>
        have hne : (name == first) = false := by
          simp only [beq_eq_false_iff_ne]
          rintro rfl
          exact String.lt_irrefl _ h
        simp [List.lookup_cons, hne, ih]
      next => simp

/-- Writing one name leaves the others as they were. -/
theorem find?_insert_of_ne (t : Table α) {name other : String} (value : α)
    (h : other ≠ name) :
    (t.insert name value).find? other = t.find? other := by
  unfold insert find?
  have hb : (other == name) = false := beq_eq_false_iff_ne.mpr h
  induction t with
  | nil => simp [List.lookup_cons, hb]
  | cons pair t ih =>
    obtain ⟨first, _⟩ := pair
    unfold insertBy
    split
    · simp [List.lookup_cons, hb]
    · split
      · simp [List.lookup_cons, ih]
      next h₁ h₂ =>
        -- the pair that is replaced has the name that is written
        have he : name = first := eq_of_not_lt h₁ h₂
        rw [he] at hb
        simp [List.lookup_cons, hb, he]

end Table

end Entitlement
