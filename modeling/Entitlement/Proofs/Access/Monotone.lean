import Entitlement.Proofs.Access.Comparison
import Entitlement.Proofs.Access.OtherTuples

/-!
# More tuples take nothing away

A permission that leads to no negation is not lost when tuples come to
those that there are. What a check allows over some tuples it does not deny
over more of them (`Resolver.retains_check`). It may fail there. Another
tuple may lead to another parent, and parents are asked in the order of
their names, so one may be met at which no answer is found before the one
that used to decide.

So the two evaluations do not go the same way, and their outcomes are
compared by `Outcome.Retains`, which says nothing of failures.
-/

namespace Entitlement

/-! ## Outcomes that retain a yes -/

namespace Outcome

variable {ε ε' α : Type}

/-- **Whether an outcome retains the yes of another one**: where that says
yes, it does not say no. -/
def Retains (x y : Except ε Bool) : Prop :=
  x = .ok true → y ≠ .ok false

namespace Retains

variable {x x' y y' : Except ε Bool}

theorem refl (x : Except ε Bool) : Retains x x := by
  rintro rfl
  simp

theorem or (hx : Retains x x') (hy : Retains y y') :
    Retains (do if ← x then pure true else y)
      (do if ← x' then pure true else y') := by
  intro h h'
  -- the second says no only if both of its operands do
  obtain ⟨b', hb', h'⟩ := bind_eq_ok_iff.mp h'
  obtain ⟨b, hb, h⟩ := bind_eq_ok_iff.mp h
  cases b' with
  | true => cases h'
  | false =>
    cases b with
    | true => exact hx hb hb'
    | false => exact hy h h'

theorem and (hx : Retains x x') (hy : Retains y y') :
    Retains (do if ← x then y else pure false)
      (do if ← x' then y' else pure false) := by
  intro h h'
  -- the first says yes only if both of its operands do
  obtain ⟨b, hb, h⟩ := bind_eq_ok_iff.mp h
  obtain ⟨b', hb', h'⟩ := bind_eq_ok_iff.mp h'
  cases b with
  | false => cases h
  | true =>
    cases b' with
    | true => exact hy h h'
    | false => exact hx hb hb'

theorem mapError (h : Retains x y) (f : ε → ε') :
    Retains (x.mapError f) (y.mapError f) := by
  intro hx hy
  rw [mapError_eq_ok_iff] at hx hy
  exact h hx hy

/-- **A search retains the yes of one among fewer elements.** -/
theorem search {xs ys : Except ε (List α)} {p p' : α → Except ε Bool}
    (h : ∀ as bs, xs = .ok as → ys = .ok bs →
      ∀ a ∈ as, a ∈ bs ∧ Retains (p a) (p' a)) :
    Retains (do (← xs).anyM p) (do (← ys).anyM p') := by
  intro hyes hno
  obtain ⟨as, has, hyes⟩ := bind_eq_ok_iff.mp hyes
  obtain ⟨bs, hbs, hno⟩ := bind_eq_ok_iff.mp hno
  obtain ⟨a, ha, hpa⟩ := exists_of_anyM hyes
  obtain ⟨hb, hretains⟩ := h as bs has hbs a ha
  exact hretains hpa (forall_of_anyM hno a hb)

end Retains

end Outcome

/-! ## Rules without a negation -/

/-- **Whether a rule leads to no negation.** -/
structure Schema.IsNegationFree (s : Schema) (type : String)
    (rule : PermissionRule) : Prop where
  no_not : ∀ type' operand, ¬ s.Reaches type rule type' (.not operand)
  no_notWith : ∀ type' operand spare,
    ¬ s.Reaches type rule type' (.notWith operand spare)

namespace Schema.IsNegationFree

variable {s : Schema} {type type' : String} {rule rule' : PermissionRule}

/-- What such a rule leads to leads to no negation either. -/
theorem of_reaches (h : s.IsNegationFree type rule)
    (hr : ∀ type'' rule'', s.Reaches type' rule' type'' rule'' →
      s.Reaches type rule type'' rule'') : s.IsNegationFree type' rule' where
  no_not type'' operand hn := h.no_not type'' operand (hr _ _ hn)
  no_notWith type'' operand spare hn :=
    h.no_notWith type'' operand spare (hr _ _ hn)

end Schema.IsNegationFree

theorem Schema.isClosed_isNegationFree (s : Schema) :
    s.IsClosed s.IsNegationFree where
  left h := h.of_reaches fun _ _ => .left
  right h := h.of_reaches fun _ _ => .right
  not h := h.of_reaches fun _ _ => .not
  notWith h := h.of_reaches fun _ _ => .notWith
  name h hp := h.of_reaches fun _ _ => .name hp
  member h hr htarget hp := by
    obtain ⟨entity, he, hr⟩ := Schema.relation?_eq_some_iff.mp hr
    exact h.of_reaches fun _ _ => .member he hr htarget hp

/-- Whether a rule says no `not`. -/
def PermissionRule.isNegationFree : PermissionRule → Bool
  | binary _ left right => left.isNegationFree && right.isNegationFree
  | incomplete _ left => left.isNegationFree
  | not _ | notWith .. => false
  | relation _ | member .. | inline _ | call .. => true

/-- The parts of a rule that says no `not` say none. -/
theorem PermissionRule.isNegationFree_of_mem_parts
    {rule part : PermissionRule} (h : rule.isNegationFree = true)
    (hpart : part ∈ rule.parts) : part.isNegationFree = true := by
  cases rule <;> grind [parts, isNegationFree]

/-- **In a schema whose rules say no `not`, none leads to a negation.** -/
theorem Schema.isNegationFree_of_rules {s : Schema}
    (hs : ∀ entity ∈ s.entities, ∀ p ∈ entity.permissions,
      p.rule.isNegationFree = true) {type : String} {rule : PermissionRule}
    (hrule : rule.isNegationFree = true) : s.IsNegationFree type rule := by
  have hfree : ∀ {type' rule'}, s.Reaches type rule type' rule' →
      rule'.isNegationFree = true := fun h =>
    h.passes (P := fun _ rule => rule.isNegationFree = true)
      (fun _ _ hrule _ => PermissionRule.isNegationFree_of_mem_parts hrule) hs
      hrule
  constructor
  · intro _ _ h
    cases hfree h
  · intro _ _ _ h
    cases hfree h

/-! ## Evaluations over more tuples -/

namespace Evaluation

variable {q : Evaluation} {stored stored' contextual contextual' : List Tuple}
  (hmore : ∀ t ∈ stored ++ contextual, t ∈ stored' ++ contextual')
include hmore

theorem retains_holdsDirectly (e : EntityRef) (relation : String) :
    Outcome.Retains ((q.overTuples stored contextual).holdsDirectly e relation)
      ((q.overTuples stored' contextual').holdsDirectly e relation) := by
  intro hyes hno
  obtain ⟨t, ht, hgrant⟩ :=
    (holdsDirectly_eq_ok (q.reads_overTuples stored contextual) hyes).mp rfl
  have hholds :=
    (holdsDirectly_eq_ok (q.reads_overTuples stored' contextual') hno).mpr
      ⟨t, hmore t ht, hgrant⟩
  cases hholds

theorem retains_holdsViaUserset (e : EntityRef) (relation : String) :
    Outcome.Retains
      ((q.overTuples stored contextual).holdsViaUserset e relation)
      ((q.overTuples stored' contextual').holdsViaUserset e relation) := by
  refine Outcome.Retains.search fun tuples tuples' h h' t ht => ?_
  rw [tuplesOn_eq_ok (q.reads_overTuples stored contextual) h] at ht
  have ht' : t ∈ tuples' :=
    (tuplesOn_eq_ok (q.reads_overTuples stored' contextual') h' t).mpr
      ⟨hmore t ht.1, ht.2⟩
  refine ⟨ht', ?_⟩
  unfold holdsUserset
  cases t.subjectRelation with
  | none => exact .refl _
  | some member => exact retains_holdsDirectly hmore t.subjectEntity member

/-- Parents stay parents. -/
theorem mem_parents_of_more {e : EntityRef} {relation : String} {r : Relation}
    (hr : q.schema.relation? e.type relation = some r)
    {parents parents' : List EntityRef}
    (h : (q.overTuples stored contextual).parents e r = .ok parents)
    (h' : (q.overTuples stored' contextual').parents e r = .ok parents')
    {parent : EntityRef} (hp : parent ∈ parents) : parent ∈ parents' := by
  obtain ⟨entity, he, hr⟩ := Schema.relation?_eq_some_iff.mp hr
  obtain ⟨entity', r', he', hr', t, ht, hparent⟩ :=
    (parents_eq_ok (q.reads_overTuples stored contextual) he hr h parent).mp hp
  exact (parents_eq_ok (q.reads_overTuples stored' contextual') he hr h'
    parent).mpr ⟨entity', r', he', hr', t, hmore t ht, hparent⟩

/-- **Over more tuples a rule without a negation retains its yes.** -/
theorem compares_of_more (q : Evaluation) :
    (q.overTuples stored contextual).Compares Outcome.Retains
      q.schema.IsNegationFree (q.overTuples stored' contextual') where
  schema := rfl
  passes := {
    error := fun _ => .refl _
    or := .or
    and := .and
    within := fun _ _ _ h => h.mapError _
    located := fun _ _ _ h => h.mapError _ }
  closed := q.schema.isClosed_isNegationFree
  not h := absurd .self (h.no_not _ _)
  notWith h := absurd .self (h.no_notWith _ _ _)
  direct _ _ := retains_holdsDirectly hmore _ _
  userset _ _ := retains_holdsViaUserset hmore _ _
  fallback _ _ _ _ := retains_holdsDirectly hmore _ _
  search _ hr hp := .search fun _ _ h h' _ hparent =>
    ⟨mem_parents_of_more (q := q) hmore hr h h' hparent,
      hp _ (mem_directTypes_of_parents h hparent)⟩
  satisfies _ _ _ := .refl _

end Evaluation

namespace Resolver

/-- **Whether a check asks for a permission without a negation**, in the
schema that it means. -/
def AsksNegationFree (r : Resolver) (request : CheckRequest) : Prop :=
  ∀ schema p, r.resolveSchema request.version = .ok schema →
    schema.permission? request.entity.type request.permission = some p →
    schema.IsNegationFree request.entity.type p.rule

/-- **What a check allows it does not deny over more tuples.** -/
theorem retains_check {r : Resolver} {request : CheckRequest}
    (hfree : r.AsksNegationFree request)
    {stored stored' contextual' : List Tuple}
    (hmore : ∀ t ∈ stored ++ request.contextual, t ∈ stored' ++ contextual') :
    Outcome.Retains ((r.overTuples stored).check request)
      ((r.overTuples stored').check
        { request with contextual := contextual' }) := by
  intro hyes hno
  obtain ⟨_, -, hyes⟩ := Outcome.bind_eq_ok_iff.mp hyes
  obtain ⟨schema, hs, hyes⟩ := Outcome.bind_eq_ok_iff.mp hyes
  obtain ⟨_, -, hno⟩ := Outcome.bind_eq_ok_iff.mp hno
  obtain ⟨schema', hs', hno⟩ := Outcome.bind_eq_ok_iff.mp hno
  cases hs.symm.trans hs'
  have hretains : Outcome.Retains
      ((r.overTuples stored).checkInSchema schema request)
      ((r.overTuples stored').checkInSchema schema
        { request with contextual := contextual' }) :=
    compares_checkInSchema
      (Evaluation.compares_of_more hmore (r.evaluation schema request))
      rfl rfl rfl fun p => hfree schema p hs
  exact hretains hyes hno

end Resolver

end Entitlement
