import Entitlement.Proofs.Access.World

/-!
# Reads that never fail

Where no read of tuples fails, whether a relation is held has an answer,
and it is a plain search among the tuples that are stored and those of the
query. `Tuple.grants` and `SubjectRef.includes` say what it looks for. Where
reads do fail, they often do all at once (`Resolver.ReadsAlike`).
-/

namespace Entitlement

/-- Whether a tuple names a subject itself on a relation of an entity. -/
def Tuple.grants (t : Tuple) (e : EntityRef) (relation : String)
    (subject : EntityRef) : Bool :=
  !t.isUserset && t.entity == e && t.relation == relation &&
    t.subjectEntity == subject

/-- **Whether an entity belongs to a subject**: it is the subject, or a
stored tuple names it on the relation of the userset. -/
def SubjectRef.includes (tuples : List Tuple) (entity : EntityRef)
    (s : SubjectRef) : Bool :=
  match s.relation with
  | none => EntityRef.mk s.type s.id == entity
  | some relation => tuples.any fun t =>
      t.grants ⟨s.type, s.id⟩ relation entity

/-- **Whether a resolver reads the tuples that are stored**, and never
fails to. -/
def Resolver.ReadsAll (r : Resolver) (stored : List Tuple) : Prop :=
  ∀ filter, r.tuples filter = .ok (stored.filter filter.admits)

/-- **Whether the reads of tuples fail alike**: either none does, and they
return what is stored, or they all do in the same way. -/
def Resolver.ReadsAlike (r : Resolver) (stored : List Tuple) : Prop :=
  r.ReadsAll stored ∨ ∃ f, ∀ filter, r.tuples filter = .error f

namespace Evaluation

variable {q : Evaluation} {stored : List Tuple} {e : EntityRef}
  {relation : String}

/-- The tuples that a filter for grants admits are all that grant. -/
theorem any_isGrant_filter (q : Evaluation) (e : EntityRef)
    (relation : String) (tuples : List Tuple) :
    (tuples.filter
        (TupleFilter.grantsTo e relation q.subject).admits).any
        (q.isGrant e relation) = tuples.any (q.isGrant e relation) := by
  rw [List.any_filter]
  refine congrArg tuples.any (funext fun t => ?_)
  rw [Bool.and_eq_right_iff_imp]
  exact fun hg => TupleFilter.admits_grantsTo.mpr (isGrant_iff.mp hg).2

/-- **Direct holding is a tuple that grants.** -/
theorem holdsDirectly_of_readsAll (hr : q.resolver.ReadsAll stored) :
    q.holdsDirectly e relation
      = .ok ((stored ++ q.contextual).any fun t =>
          t.grants e relation q.subject) := by
  show _ = Except.ok ((stored ++ q.contextual).any (q.isGrant e relation))
  unfold holdsDirectly
  rw [List.any_append, hr]
  cases q.contextual.any (q.isGrant e relation) with
  | true => rw [if_pos rfl, Bool.or_true]
  | false =>
    rw [Bool.or_false, ← any_isGrant_filter]
    rfl

/-- The tuples on a relation are those that are stored and then those of
the query. -/
theorem tuplesOn_of_readsAll (hr : q.resolver.ReadsAll stored) :
    q.tuplesOn e relation
      = .ok ((stored ++ q.contextual).filter
          (TupleFilter.onRelation e relation).admits) := by
  show (q.resolver.tuples _ >>= fun tuples => Except.ok (tuples ++ _)) = _
  rw [hr, List.filter_append]
  rfl

/-- Holding by way of a userset is a tuple whose subject has a relation
and includes the subject. -/
theorem holdsViaUserset_of_readsAll (hr : q.resolver.ReadsAll stored) :
    q.holdsViaUserset e relation
      = .ok (((stored ++ q.contextual).filter
          (TupleFilter.onRelation e relation).admits).any fun t =>
            t.subjectRelation.isSome &&
              t.subject.includes (stored ++ q.contextual) q.subject) := by
  unfold holdsViaUserset
  rw [tuplesOn_of_readsAll hr]
  refine Outcome.anyM_eq_ok_any fun t _ => ?_
  unfold holdsUserset SubjectRef.includes
  rw [show t.subject.relation = t.subjectRelation from rfl]
  cases t.subjectRelation with
  | none => rfl
  | some member =>
    simp only [Option.isSome_some, Bool.true_and]
    exact holdsDirectly_of_readsAll hr

end Evaluation

end Entitlement
