import Entitlement.Access.Lookup
import Entitlement.Proofs.Access.World

/-!
# What a page of a lookup shows

A page of a lookup shows, in ascending order, the candidates behind its
token that are allowed, as far as the token that it ends with
(`Page.Shows`). It ends with a token only if it is full while candidates
are left, and then with the last identifier that it shows.

Both kinds of lookups go through the same steps, so `Lookup` makes them one
thing, which is asked for pages. Its candidates are said in terms of
tuples: those that are stored and those of the query.
-/

namespace Entitlement

/-! ## Windows between tokens -/

/-- Whether an identifier lies behind a token; without one all do. -/
def IsBehind (token : Option String) (id : String) : Prop :=
  ∀ t, token = some t → t < id

/-- Whether an identifier lies within what a page covers that ends with a
token; without one it covers all that is left. -/
def IsWithin (next : Option String) (id : String) : Prop :=
  ∀ t, next = some t → id ≤ t

@[simp] theorem isBehind_none (id : String) : IsBehind none id :=
  fun _ h => nomatch h

@[simp] theorem isBehind_some {token id : String} :
    IsBehind (some token) id ↔ token < id := by
  simp [IsBehind]

@[simp] theorem isWithin_none (id : String) : IsWithin none id :=
  fun _ h => nomatch h

@[simp] theorem isWithin_some {next id : String} :
    IsWithin (some next) id ↔ id ≤ next := by
  simp [IsWithin]

/-- What lies behind a token are the candidates that are left. -/
theorem mem_behindToken_iff {token : Option String} {candidates : List String}
    {id : String} :
    id ∈ behindToken token candidates ↔
      id ∈ candidates ∧ IsBehind token id := by
  cases token with
  | none => simp [behindToken]
  | some token => simp [behindToken]

theorem behindToken_sublist (token : Option String)
    (candidates : List String) :
    (behindToken token candidates).Sublist candidates := by
  cases token with
  | none => exact List.Sublist.refl candidates
  | some token => exact List.filter_sublist

/-! ## One page -/

/-- **What a page shows of ascending candidates**: the allowed ones in
their order, as far as the token that it ends with. It ends with a token
only if it is full, and then with the last that it shows. -/
structure Page.Shows (page : Page) (allowed : String → Except Failure Bool)
    (size : Nat) (candidates : List String) : Prop where
  sublist : page.ids.Sublist candidates
  mem_ids_iff : ∀ id, id ∈ page.ids ↔
    id ∈ candidates ∧ allowed id = .ok true ∧ IsWithin page.next id
  length_le : page.ids.length ≤ size
  length_eq : page.next ≠ none → page.ids.length = size
  next_mem : ∀ next, page.next = some next → next ∈ page.ids

namespace Page.Shows

variable {allowed : String → Except Failure Bool} {size : Nat}
  {candidates : List String} {page : Page} {id : String}

/-- Without candidates there is nothing to show. -/
theorem nil (allowed : String → Except Failure Bool) (size : Nat) :
    Page.Shows ⟨[], none⟩ allowed size [] where
  sublist := List.Sublist.refl []
  mem_ids_iff _ := by simp
  length_le := Nat.zero_le size
  length_eq h := absurd rfl h
  next_mem _ h := nomatch h

/-- A candidate that is not allowed is passed over. -/
theorem skip (h : page.Shows allowed size candidates)
    (hid : allowed id ≠ .ok true) :
    page.Shows allowed size (id :: candidates) where
  sublist := h.sublist.cons id
  mem_ids_iff other := by
    rw [h.mem_ids_iff, List.mem_cons]
    constructor
    · exact fun ⟨hmem, hrest⟩ => ⟨Or.inr hmem, hrest⟩
    · rintro ⟨rfl | hmem, hallowed, hwithin⟩
      · exact absurd hallowed hid
      · exact ⟨hmem, hallowed, hwithin⟩
  length_le := h.length_le
  length_eq := h.length_eq
  next_mem := h.next_mem

/-- An allowed candidate stands before what comes behind it. -/
theorem take (h : page.Shows allowed size candidates)
    (hid : allowed id = .ok true) (hlt : ∀ other ∈ candidates, id < other) :
    Page.Shows ⟨id :: page.ids, page.next⟩ allowed (size + 1)
      (id :: candidates) where
  sublist := h.sublist.cons_cons id
  mem_ids_iff other := by
    rw [List.mem_cons, List.mem_cons, h.mem_ids_iff]
    constructor
    · rintro (rfl | ⟨hmem, hrest⟩)
      · -- the token is one of the candidates that come behind
        refine ⟨Or.inl rfl, hid, fun next hnext => ?_⟩
        exact Std.le_of_lt
          (hlt next (h.sublist.subset (h.next_mem next hnext)))
      · exact ⟨Or.inr hmem, hrest⟩
    · rintro ⟨rfl | hmem, hrest⟩
      · exact Or.inl rfl
      · exact Or.inr ⟨hmem, hrest⟩
  length_le := Nat.succ_le_succ h.length_le
  length_eq hnext := congrArg Nat.succ (h.length_eq hnext)
  next_mem next hnext := List.mem_cons_of_mem id (h.next_mem next hnext)

/-- An allowed candidate that fills the page ends it, with a token if
others are left. -/
theorem last (hid : allowed id = .ok true)
    (hlt : ∀ other ∈ candidates, id < other) :
    Page.Shows ⟨[id], if candidates.isEmpty then none else some id⟩ allowed 1
      (id :: candidates) where
  sublist := List.singleton_sublist.mpr List.mem_cons_self
  mem_ids_iff other := by
    rw [List.mem_singleton, List.mem_cons]
    constructor
    · rintro rfl
      refine ⟨Or.inl rfl, hid, ?_⟩
      split
      · exact isWithin_none other
      · exact isWithin_some.mpr (String.le_refl other)
    · rintro ⟨rfl | hmem, -, hwithin⟩
      · rfl
      · have hempty : candidates.isEmpty = false :=
          List.isEmpty_eq_false_iff_exists_mem.mpr ⟨other, hmem⟩
        rw [hempty, if_neg Bool.false_ne_true, isWithin_some] at hwithin
        exact absurd (hlt other hmem) (String.not_lt.mpr hwithin)
  length_le := Nat.le_refl 1
  length_eq _ := rfl
  next_mem next hnext := by
    dsimp only at hnext
    split at hnext
    · cases hnext
    · cases hnext
      exact List.mem_singleton_self id

end Page.Shows

/-- **A scan shows the allowed candidates**, at most `size` of them. -/
theorem Page.shows_of_scanPage {allowed : String → Except Failure Bool}
    {size : Nat} {candidates : List String} {page : Page}
    (hlt : candidates.Pairwise (· < ·))
    (h : scanPage allowed size candidates = .ok page) :
    page.Shows allowed (max size 1) candidates := by
  induction candidates generalizing size page with
  | nil =>
    cases h
    exact .nil allowed _
  | cons id rest ih =>
    obtain ⟨hid, hrest⟩ := List.pairwise_cons.mp hlt
    obtain ⟨answer, hanswer, h⟩ := Outcome.bind_eq_ok_iff.mp h
    cases answer with
    | false =>
      refine (ih hrest h).skip ?_
      rw [hanswer]
      simp
    | true =>
      simp only [if_true] at h
      split at h
      next hsize =>
        cases h
        rw [Nat.max_eq_right hsize]
        exact .last hanswer hid
      next hsize =>
        obtain ⟨behind, hbehind, h⟩ := Outcome.bind_eq_ok_iff.mp h
        cases h
        have hmax : max size 1 = max (size - 1) 1 + 1 := by omega
        rw [hmax]
        exact (ih hrest hbehind).take hanswer hid

/-- A scan in which no check fails has an answer. -/
theorem exists_scanPage {allowed : String → Except Failure Bool}
    {candidates : List String} (h : ∀ id ∈ candidates, ∃ b, allowed id = .ok b)
    (size : Nat) : ∃ page, scanPage allowed size candidates = .ok page := by
  induction candidates generalizing size with
  | nil => exact ⟨_, rfl⟩
  | cons id rest ih =>
    obtain ⟨answer, hanswer⟩ := h id List.mem_cons_self
    have hrest := ih fun other ho => h other (List.mem_cons_of_mem id ho)
    simp only [scanPage, hanswer, Outcome.bind_eq_ok_iff, Except.ok.injEq,
      exists_eq_left']
    cases answer with
    | false => exact hrest size
    | true =>
      simp only [if_true]
      split
      · exact ⟨_, rfl⟩
      · obtain ⟨page, hpage⟩ := hrest (size - 1)
        exact ⟨_, by rw [hpage]; rfl⟩

/-! ## Lookups -/

/-- **A lookup**, whatever page of it is asked for. -/
inductive Lookup
  /-- On which entities of a type a subject holds a permission. -/
  | entities (request : LookupEntityRequest)
  /-- Which subjects of a type hold a permission on an entity. -/
  | subjects (request : LookupSubjectRequest)

/-- **Whether a resolver reads stored tuples as they are.** Its reads may
fail, but one that succeeds returns exactly what it was asked for. -/
def Resolver.ReadsTuples (r : Resolver) (stored : List Tuple) : Prop :=
  ∀ filter tuples, r.tuples filter = .ok tuples →
    ∀ t, t ∈ tuples ↔ t ∈ stored ∧ filter.admits t = true

theorem Resolver.Reads.readsTuples {r : Resolver} {facts : Facts}
    (h : r.Reads facts) : r.ReadsTuples facts.tuples :=
  fun _ _ => h.mem_tuples

namespace Lookup

/-- **The answer of a resolver for a page.** -/
def ask (l : Lookup) (r : Resolver) (page : PageRequest) :
    Except Failure Page :=
  match l with
  | entities request => r.lookupEntity { request with page }
  | subjects request => r.lookupSubject { request with page }

/-- The version of the schema that is asked for. -/
def version : Lookup → Option String
  | entities request => request.version
  | subjects request => request.version

/-- The tuples of the query. -/
def contextual : Lookup → List Tuple
  | entities request => request.contextual
  | subjects request => request.contextual

/-- The check of a candidate. -/
def toCheck : Lookup → String → CheckRequest
  | entities request => request.toCheck
  | subjects request => request.toCheck

/-- Whether a tuple names an identifier that the lookup is about: as the
entity that the tuple is about, or as its subject if that is no userset. -/
def IsNamedBy (l : Lookup) (id : String) (t : Tuple) : Prop :=
  match l with
  | entities request => t.entityType = request.entityType ∧ t.entityId = id
  | subjects request => t.isUserset = false ∧
      t.subjectType = request.subjectType ∧ t.subjectId = id

/-- **Whether an identifier is a candidate**: a stored tuple names it, or
one of the query. -/
def IsCandidate (l : Lookup) (stored : List Tuple) (id : String) : Prop :=
  ∃ t ∈ stored ++ l.contextual, l.IsNamedBy id t

/-- **Whether a candidate is allowed**: its check in the schema that is
asked for answers so. -/
def Allows (l : Lookup) (r : Resolver) (id : String) : Prop :=
  ∃ schema, r.resolveSchema l.version = .ok schema ∧
    r.checkInSchema schema (l.toCheck id) = .ok true

/-! ### What all lookups have in common -/

/-- Refuses a lookup with a blank field. -/
def validate : Lookup → Except Failure Unit
  | entities request => request.validate
  | subjects request => request.validate

/-- The permission that is asked for, in a schema. -/
def findPermission (l : Lookup) (schema : Schema) :
    Except Failure Permission :=
  match l with
  | entities request =>
    Resolver.findPermission schema request.entityType request.permission
  | subjects request =>
    Resolver.findPermission schema request.entity.type request.permission

/-- The filter of the tuples that may name candidates. -/
def filter : Lookup → TupleFilter
  | entities request => { entityType := some request.entityType }
  | subjects request => { subjectType := some request.subjectType }

/-- The candidate that a tuple of the filter names, if it names one. -/
def extract : Lookup → Tuple → Option String
  | entities _ => Resolver.entityCandidate
  | subjects _ => Resolver.subjectCandidate

variable {l : Lookup} {r : Resolver} {stored : List Tuple} {id : String}

/-- A lookup scans its candidates, once it is found to make sense. -/
theorem ask_eq (l : Lookup) (r : Resolver) (page : PageRequest) :
    l.ask r page = (do
      l.validate
      let schema ← r.resolveSchema l.version
      let _ ← l.findPermission schema
      let candidates ← r.candidates l.filter l.contextual l.extract
      r.scan schema page candidates l.toCheck) := by
  cases l <;> rfl

/-- A page that is answered comes from such a scan. -/
theorem ask_eq_ok_iff {page : PageRequest} {answer : Page} :
    l.ask r page = .ok answer ↔
      l.validate = .ok () ∧ ∃ schema,
        r.resolveSchema l.version = .ok schema ∧
        (∃ p, l.findPermission schema = .ok p) ∧ ∃ candidates,
          r.candidates l.filter l.contextual l.extract = .ok candidates ∧
          r.scan schema page candidates l.toCheck = .ok answer := by
  simp only [ask_eq, Outcome.bind_eq_ok_iff]
  constructor
  · rintro ⟨⟨⟩, hv, schema, hs, p, hp, candidates, hc, hscan⟩
    exact ⟨hv, schema, hs, ⟨p, hp⟩, candidates, hc, hscan⟩
  · rintro ⟨hv, schema, hs, ⟨p, hp⟩, candidates, hc, hscan⟩
    exact ⟨(), hv, schema, hs, p, hp, candidates, hc, hscan⟩

/-- What is extracted from the tuples of the filter is what they name. -/
theorem isNamedBy_iff {t : Tuple} :
    l.IsNamedBy id t ↔ l.filter.admits t = true ∧ l.extract t = some id := by
  cases l with
  | entities request =>
    simp only [IsNamedBy, filter, extract, TupleFilter.admits, agrees,
      Resolver.entityCandidate, Bool.and_true, beq_iff_eq, Option.some.injEq]
    exact and_congr_left' eq_comm
  | subjects request =>
    simp only [IsNamedBy, filter, extract, TupleFilter.admits, agrees,
      Resolver.subjectCandidate, Bool.true_and, Bool.and_true, beq_iff_eq]
    cases t.isUserset with
    | false =>
      simp only [true_and, if_neg Bool.false_ne_true, Option.some.injEq]
      exact and_congr_left' eq_comm
    | true => simp

/-- **The candidates are read as they are**, in ascending order. -/
theorem candidates_eq_ok (hr : r.ReadsTuples stored)
    {candidates : List String}
    (h : r.candidates l.filter l.contextual l.extract = .ok candidates) :
    candidates.Pairwise (· < ·) ∧
      ∀ id, id ∈ candidates ↔ l.IsCandidate stored id := by
  obtain ⟨tuples, ht, h⟩ := Outcome.bind_eq_ok_iff.mp h
  cases h
  refine ⟨pairwise_ascending _ _, fun id => ?_⟩
  rw [mem_ascending_iff isFaithfulKey_text, List.mem_filterMap]
  refine exists_congr fun t => ?_
  rw [isNamedBy_iff, List.mem_append, List.mem_append, List.mem_filter,
    hr _ _ ht t, ← or_and_right, and_assoc]

end Lookup

end Entitlement
