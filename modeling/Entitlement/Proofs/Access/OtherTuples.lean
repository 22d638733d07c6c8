import Entitlement.Proofs.Access.AllRead

/-!
# Evaluations over other tuples

`Resolver.overTuples` is a resolver with other tuples stored, and
`Evaluation.overTuples` an evaluation over these and with other tuples of
the query. Their reads fail where they did, so two evaluations over
different tuples differ in nothing but what they find.
-/

namespace Entitlement

/-- **The resolver over other stored tuples.** Its reads fail where they
did. -/
def Resolver.overTuples (r : Resolver) (stored : List Tuple) : Resolver :=
  { r with
    tuples := fun filter =>
      (r.tuples filter).map fun _ => stored.filter filter.admits }

/-- The evaluation over other tuples, stored ones and those of the
query. -/
def Evaluation.overTuples (q : Evaluation) (stored contextual : List Tuple) :
    Evaluation :=
  { q with resolver := q.resolver.overTuples stored, contextual }

namespace Resolver

variable {r : Resolver} {stored : List Tuple}

/-- Where no read fails, all of them are read. -/
theorem ReadsAll.overTuples (hr : r.ReadsAll stored) (stored' : List Tuple) :
    (r.overTuples stored').ReadsAll stored' := by
  intro filter
  show (r.tuples filter).map _ = _
  rw [hr]
  rfl

/-- A resolver whose reads fail alike reads what is stored, if anything. -/
theorem ReadsAlike.overTuples_eq (hr : r.ReadsAlike stored) :
    r.overTuples stored = r := by
  have htuples : (r.overTuples stored).tuples = r.tuples := by
    funext filter
    show (r.tuples filter).map _ = _
    rcases hr with hr | ⟨f, hf⟩
    · rw [hr]
      rfl
    · rw [hf]
      rfl
  show { r with tuples := (r.overTuples stored).tuples } = r
  rw [htuples]

end Resolver

namespace Evaluation

variable {e : EntityRef} {relation : String}

/-- What an evaluation over other stored tuples is about. -/
def factsOver (q : Evaluation) (stored : List Tuple) : Facts where
  tuples := stored
  attributes e := (q.resolver.attributes e).toOption.getD []

/-- What is read over other tuples is one of them. -/
theorem reads_overTuples (q : Evaluation) (stored contextual : List Tuple) :
    (q.overTuples stored contextual).resolver.Reads (q.factsOver stored) where
  mem_tuples {filter tuples} h t := by
    obtain ⟨_, -, rfl⟩ := Outcome.map_eq_ok_iff.mp h
    exact List.mem_filter
  attributes_eq {e attributes} h := by
    have h : q.resolver.attributes e = .ok attributes := h
    simp [factsOver, h, Except.toOption]

/-- A direct holding is looked for among the tuples of the query and then
among those that are stored. -/
theorem holdsDirectly_overTuples_eq (q : Evaluation)
    (stored contextual : List Tuple) :
    (q.overTuples stored contextual).holdsDirectly e relation
      = if contextual.any (q.isGrant e relation) then .ok true
        else (q.resolver.tuples (.grantsTo e relation q.subject)).map fun _ =>
          stored.any (q.isGrant e relation) := by
  show (if contextual.any (q.isGrant e relation) then _ else
    ((q.resolver.tuples (.grantsTo e relation q.subject)).map _ >>= _)) = _
  cases q.resolver.tuples (.grantsTo e relation q.subject) with
  | error f => rfl
  | ok _ =>
    rw [← any_isGrant_filter q e relation stored]
    rfl

theorem tuplesOn_overTuples (q : Evaluation) (stored contextual : List Tuple)
    (e : EntityRef) (relation : String) :
    (q.overTuples stored contextual).tuplesOn e relation
      = (q.resolver.tuples (.onRelation e relation)).map fun _ =>
          (stored ++ contextual).filter
            (TupleFilter.onRelation e relation).admits := by
  show ((q.resolver.tuples (.onRelation e relation)).map _ >>= _) = _
  cases q.resolver.tuples (.onRelation e relation) with
  | error f => rfl
  | ok _ =>
    rw [List.filter_append]
    rfl

end Evaluation

end Entitlement
