import Entitlement.Proofs.Access.Comparison
import Entitlement.Proofs.Access.OtherTuples

/-!
# Which tuples concern a check

A check for a subject asks for tuples in three ways. It looks for tuples
that name the subject, for usersets of which the subject may be a member,
and for the parents of an entity. The last it does only on relations that
the schema goes on by, and a tuple with a subject relation counts as a
userset wherever it stands. A tuple that is asked for in none of these
ways does not concern the subject (`Schema.concerns`).

Two lists of tuples *agree* on what concerns the subject if they have the
same such tuples in the same order. Then a check comes to the same over
both, failures included (`Resolver.check_overTuples`).
-/

namespace Entitlement

/-! ## Lists that agree -/

/-- **Whether two lists have the same elements of a sort**, in the same
order. -/
def AgreeOn {α : Type} (c : α → Bool) (xs ys : List α) : Prop :=
  xs.filter c = ys.filter c

namespace AgreeOn

variable {α ε : Type} {c : α → Bool} {xs ys xs' ys' : List α}

/-- Lists that differ only in what is not of the sort agree. -/
theorem of_imp {c' : α → Bool} (h : AgreeOn c' xs ys)
    (hc : ∀ x, c x = true → c' x = true) : AgreeOn c xs ys := by
  have hfilter : ∀ zs : List α, (zs.filter c').filter c = zs.filter c := by
    intro zs
    rw [List.filter_filter]
    refine List.filter_congr fun x _ => ?_
    cases hx : c x with
    | true => simp [hc x hx]
    | false => simp
  unfold AgreeOn
  rw [← hfilter xs, ← hfilter ys, h]

/-- A list agrees with what is kept of it, if all of the sort is. -/
theorem of_filter {keep : α → Bool}
    (h : ∀ x ∈ xs, c x = true → keep x = true) :
    AgreeOn c (xs.filter keep) xs := by
  unfold AgreeOn
  rw [List.filter_filter]
  refine List.filter_congr fun x hx => ?_
  rw [Bool.and_eq_left_iff_imp]
  exact h x hx

theorem append (h : AgreeOn c xs ys) (h' : AgreeOn c xs' ys') :
    AgreeOn c (xs ++ xs') (ys ++ ys') := by
  unfold AgreeOn
  rw [List.filter_append, List.filter_append, h, h']

theorem filter (h : AgreeOn c xs ys) (p : α → Bool) :
    AgreeOn c (xs.filter p) (ys.filter p) := by
  have hcomm : ∀ zs : List α,
      (zs.filter p).filter c = (zs.filter c).filter p := by
    intro zs
    rw [List.filter_filter, List.filter_filter]
    exact List.filter_congr fun x _ => Bool.and_comm _ _
  unfold AgreeOn
  rw [hcomm xs, hcomm ys, h]

/-- To agree on what passes a filter is to agree on what is of the sort and
passes it. -/
theorem filter_iff {p : α → Bool} :
    AgreeOn c (xs.filter p) (ys.filter p) ↔
      AgreeOn (fun x => c x && p x) xs ys := by
  unfold AgreeOn
  rw [List.filter_filter, List.filter_filter]

/-- If there is nothing else in them, lists that agree are the same. -/
theorem eq (h : AgreeOn c xs ys) (hxs : ∀ x ∈ xs, c x = true)
    (hys : ∀ y ∈ ys, c y = true) : xs = ys := by
  rw [← List.filter_eq_self.mpr hxs, ← List.filter_eq_self.mpr hys, h]

/-- In lists that agree, the same is found that is of the sort. -/
theorem any (h : AgreeOn c xs ys) {p : α → Bool}
    (hp : ∀ x, p x = true → c x = true) : xs.any p = ys.any p := by
  have hany : ∀ zs : List α, zs.any p = (zs.filter c).any p := by
    intro zs
    rw [List.any_filter]
    refine congrArg zs.any (funext fun x => ?_)
    cases hx : p x with
    | true => simp [hp x hx]
    | false => simp
  rw [hany xs, hany ys, h]

/-- So a search does that passes over all others. -/
theorem anyM (h : AgreeOn c xs ys) {p : α → Except ε Bool}
    (hp : ∀ x, c x = false → p x = .ok false) : xs.anyM p = ys.anyM p := by
  have hsearch : ∀ zs : List α, zs.anyM p = (zs.filter c).anyM p := by
    intro zs
    induction zs with
    | nil => rfl
    | cons z zs ih =>
      cases hz : c z with
      | true =>
        rw [List.filter_cons_of_pos hz, List.anyM_cons, List.anyM_cons, ih]
      | false =>
        rw [List.filter_cons_of_neg (by simp [hz]), List.anyM_cons, hp z hz]
        exact ih
  rw [hsearch xs, hsearch ys, h]

end AgreeOn

/-! ## What concerns a subject -/

/-- **Whether a tuple concerns a subject** under a schema: it names the
subject or a userset, or it may lead to a parent. -/
def Schema.concerns (s : Schema) (subject : EntityRef) (t : Tuple) : Bool :=
  t.subjectRelation.isSome || t.subjectEntity == subject ||
    s.traverses t.entityType t.relation

namespace Evaluation

variable {q : Evaluation} {stored stored' contextual contextual' : List Tuple}
  {e : EntityRef} {relation : String}

/-- What is asked for a direct holding concerns the subject. -/
theorem concerns_of_isGrant {t : Tuple} (h : q.isGrant e relation t = true) :
    q.schema.concerns q.subject t = true := by
  obtain ⟨-, -, -, hsubject⟩ := isGrant_iff.mp h
  simp [Schema.concerns, hsubject]

/-- What is asked for parents concerns any subject. -/
theorem concerns_of_admits {t : Tuple} (subject : EntityRef)
    (hgoes : q.schema.traverses e.type relation = true)
    (h : (TupleFilter.onRelation e relation).admits t = true) :
    q.schema.concerns subject t = true := by
  obtain ⟨rfl, rfl⟩ := TupleFilter.admits_onRelation.mp h
  have hgoes : q.schema.traverses t.entityType t.relation = true := hgoes
  simp [Schema.concerns, hgoes]

section Agree

variable
  (hstored : AgreeOn (q.schema.concerns q.subject) stored stored')
  (hcontextual :
    AgreeOn (q.schema.concerns q.subject) contextual contextual')
include hstored hcontextual

theorem holdsDirectly_overTuples (e : EntityRef) (relation : String) :
    (q.overTuples stored contextual).holdsDirectly e relation
      = (q.overTuples stored' contextual').holdsDirectly e relation := by
  have hgrant : ∀ t, q.isGrant e relation t = true →
      q.schema.concerns q.subject t = true :=
    fun _ => concerns_of_isGrant
  rw [holdsDirectly_overTuples_eq, holdsDirectly_overTuples_eq,
    hcontextual.any hgrant, hstored.any hgrant]

theorem holdsViaUserset_overTuples (e : EntityRef) (relation : String) :
    (q.overTuples stored contextual).holdsViaUserset e relation
      = (q.overTuples stored' contextual').holdsViaUserset e relation := by
  have hsame : (q.overTuples stored contextual).holdsUserset
      = (q.overTuples stored' contextual').holdsUserset := by
    funext t
    unfold holdsUserset
    cases t.subjectRelation with
    | none => rfl
    | some member =>
      exact holdsDirectly_overTuples hstored hcontextual t.subjectEntity
        member
  -- a tuple that does not concern the subject has no subject relation
  have hpass : ∀ t, q.schema.concerns q.subject t = false →
      (q.overTuples stored' contextual').holdsUserset t = .ok false := by
    intro t ht
    unfold holdsUserset
    cases hrel : t.subjectRelation with
    | none => rfl
    | some member => simp [Schema.concerns, hrel] at ht
  unfold holdsViaUserset
  rw [tuplesOn_overTuples, tuplesOn_overTuples, hsame]
  cases q.resolver.tuples (.onRelation e relation) with
  | error f => rfl
  | ok _ => exact ((hstored.append hcontextual).filter _).anyM hpass

theorem parents_overTuples {r : Relation}
    (hgoes : q.schema.traverses e.type r.name = true) :
    (q.overTuples stored contextual).parents e r
      = (q.overTuples stored' contextual').parents e r := by
  have hconcerns : ∀ tuples : List Tuple, ∀ t ∈ tuples.filter
      (TupleFilter.onRelation e r.name).admits,
      q.schema.concerns q.subject t = true :=
    fun _ _ ht => concerns_of_admits q.subject hgoes (List.mem_filter.mp ht).2
  have hsame := ((hstored.append hcontextual).filter
    (TupleFilter.onRelation e r.name).admits).eq (hconcerns _) (hconcerns _)
  unfold parents
  rw [tuplesOn_overTuples, tuplesOn_overTuples, hsame]

/-- **An evaluation is the same over tuples that agree** on what concerns
its subject. -/
theorem settles_overTuples :
    (q.overTuples stored contextual).Settles (fun _ => False)
      (fun type relation => q.schema.traverses type relation = true)
      (q.overTuples stored' contextual') where
  schema := rfl
  direct e relation :=
    .inl (holdsDirectly_overTuples hstored hcontextual e relation)
  userset e relation :=
    .inl (holdsViaUserset_overTuples hstored hcontextual e relation)
  parents _ _ hgoes := .inl (parents_overTuples hstored hcontextual hgoes)
  satisfies _ _ _ := .refl _

end Agree

end Evaluation

namespace Resolver

variable {r : Resolver} {request : CheckRequest}
  {stored stored' contextual' : List Tuple}

/-- **A check comes to the same over tuples that agree** on what concerns
its subject under the schema that it means. -/
theorem check_overTuples
    (hstored : ∀ schema, r.resolveSchema request.version = .ok schema →
      AgreeOn (schema.concerns request.subject) stored stored')
    (hcontextual : ∀ schema, r.resolveSchema request.version = .ok schema →
      AgreeOn (schema.concerns request.subject) request.contextual
        contextual') :
    (r.overTuples stored').check { request with contextual := contextual' }
      = (r.overTuples stored).check request := by
  refine (Outcome.Settles.eq_of_none ?_).symm
  refine Outcome.Settles.bind (.refl _) fun _ _ => ?_
  refine Outcome.Settles.bind (.refl _) fun schema hs => ?_
  exact settles_checkInSchema
    (Evaluation.settles_overTuples (q := r.evaluation schema request)
      (hstored schema hs) (hcontextual schema hs))
    (fun _ _ _ => id) (fun _ _ => id) rfl rfl rfl

end Resolver

end Entitlement
