import Entitlement.Proofs.Access.Depth
import Entitlement.Proofs.Access.Monotone
import Entitlement.Proofs.Service.Queries

/-!
# To delete tuples grants nothing

Someone who takes a relation back wants to be sure that nobody gains by it.
For a permission that leads to no negation this is so: a check that is
denied is not allowed after a deletion, and one that is allowed is not
denied after a write (`Service.more_tuples_take_nothing_away`).
-/

namespace Entitlement

namespace Service

variable {engine : ExpressionEngine}

/-- **More tuples take nothing away.** Of a permission that leads to no
negation, what is allowed over some tuples, stored or brought with the
query, is not denied over more of them, for any resolver and for a service
in every state that it can come to. So what is allowed is not denied after
a write, and what is denied is not allowed after a deletion. The check may
fail with more tuples, since a parent that comes in may be one where no
answer is found. -/
theorem more_tuples_take_nothing_away {request : CheckRequest} :
    (∀ r : Resolver, r.AsksNegationFree request →
      ∀ stored stored' contextual',
        (∀ t ∈ stored ++ request.contextual, t ∈ stored' ++ contextual') →
        (r.overTuples stored).check request = .ok true →
        (r.overTuples stored').check
          { request with contextual := contextual' } ≠ .ok false) ∧
    (∀ settings events,
      let s := ({ settings } : Service engine).after events
      (s.resolver request.tenant).AsksNegationFree request →
        (∀ stored' contextual',
          (∀ t ∈ (s.facts request.tenant).tuples ++ request.contextual,
            t ∈ stored' ++ contextual') →
          (s.apply (.check request)).1 = .allowed true →
          ((s.withTuples request.tenant stored').apply
              (.check { request with contextual := contextual' })).1
            ≠ .allowed false) ∧
        (∀ tuples,
          (s.apply (.writeRelationships request.tenant tuples)).1 = .done →
          (s.apply (.check request)).1 = .allowed true →
          ((s.apply (.writeRelationships request.tenant tuples)).2.apply
              (.check request)).1 ≠ .allowed false) ∧
        (∀ filter, (s.apply (.check request)).1 = .allowed false →
          ((s.apply (.deleteRelationships request.tenant filter)).2.apply
              (.check request)).1 ≠ .allowed true)) := by
  refine ⟨fun r hfree stored stored' contextual' hmore =>
    Resolver.retains_check hfree hmore, ?_⟩
  intro settings events s hfree
  have hs : s.Coherent := (coherent_new settings).after events
  refine ⟨fun stored' contextual' hmore hyes hno => ?_,
    fun tuples hdone hyes hno => ?_, fun filter hno hyes => ?_⟩
  · exact Resolver.retains_check hfree hmore (hs.apply_check_iff.mp hyes)
      ((hs.apply_check_withTuples_iff rfl).mp hno)
  · have hremembered := hs.remember request.tenant none
    rw [withTuples_of_apply_write hdone,
      hremembered.apply_check_withTuples_iff rfl, hs.resolver_remember] at hno
    refine Resolver.retains_check hfree (fun t ht => ?_)
      (hs.apply_check_iff.mp hyes) hno
    rw [List.mem_append, mem_insertAllBy_iff Tuple.isFaithfulKey, or_assoc]
    exact (List.mem_append.mp ht).imp id Or.inr
  · rcases withTuples_of_apply_delete s request.tenant filter with h | h
    · rw [h, hno] at hyes
      cases hyes
    · rw [h, hs.apply_check_withTuples_iff rfl] at hyes
      refine Resolver.retains_check hfree (fun t ht => ?_) hyes
        (hs.apply_check_iff.mp hno)
      exact (List.mem_append.mp ht).elim
        (fun ht => List.mem_append_left _ (List.mem_of_mem_filter ht))
        (List.mem_append_right _)

/-- Folders are viewed by whoever views the folder they are in, and by
their owners. -/
def circularSchema : Schema where
  tenant := "t"
  version := "v"
  source := "entity user \x7b\x7d entity folder \x7b relation in @folder " ++
    "relation of @user permission view = in.view or of \x7d"
  rules := []
  entities := [{ name := "user" }, {
    name := "folder"
    relations := [⟨"in", [⟨"folder", none⟩]⟩, ⟨"of", [⟨"user", none⟩]⟩]
    permissions := [⟨"view",
      .binary .or (.member "in" "view") (.relation "of")⟩] }]
  createdAt := 0
  updatedAt := 0

theorem compile_circularSchema :
    compileSchema Condition.engine.refusal? "t" "v" circularSchema.source 0
      = .ok circularSchema :=
  Outcome.eq_ok_of_toOption (by decide +kernel)

/-- Someone owns a folder. -/
def ownedFolder : Tuple :=
  ⟨"folder", "a", "of", "user", "u", none⟩

/-- The folder is in itself. -/
def circularFolder : Tuple :=
  ⟨"folder", "a", "in", "folder", "a", none⟩

/-- The schema is stored, and that someone owns a folder. -/
def circularEvents : List Event :=
  [.storeSchema "t" ⟨"v", circularSchema.source, 0⟩,
    .storeTuples "t" [ownedFolder]]

/-- The service that they are stored for. -/
def circularService : Service Condition.engine :=
  ({} : Service _).after circularEvents

/-- Whether someone views the folder. -/
def circularRequest (subject : String) : CheckRequest where
  tenant := "t"
  entity := ⟨"folder", "a"⟩
  permission := "view"
  subject := ⟨"user", subject⟩

theorem coherent_circularService : circularService.Coherent :=
  (coherent_new {}).after circularEvents

theorem resolveSchema_circularService :
    (circularService.resolver "t").resolveSchema none = .ok circularSchema := by
  have hmeant : circularService.store.meant "t" none
      = .ok ⟨"v", circularSchema.source, 0⟩ := rfl
  exact (coherent_circularService.resolveSchema_of_meant hmeant).trans
    compile_circularSchema

/-- It answers checks from this schema. -/
theorem apply_check_circularService {subject : String}
    (hv : (circularRequest subject).validate = .ok ()) :
    (circularService.apply (.check (circularRequest subject))).1
      = showQuery .allowed ((circularService.resolver "t").checkInSchema
          circularSchema (circularRequest subject)) := by
  have hcheck : (circularService.resolver "t").check (circularRequest subject)
      = (circularService.resolver "t").checkInSchema circularSchema
          (circularRequest subject) :=
    Resolver.check_of_schema hv resolveSchema_circularService
  rw [coherent_circularService.fst_apply_check]
  exact congrArg _ hcheck

/-- What is asked of it leads to no negation. -/
theorem asksNegationFree_circular {r : Resolver}
    (hr : r.resolveSchema none = .ok circularSchema) (subject : String) :
    r.AsksNegationFree (circularRequest subject) := by
  intro schema p hs hp
  cases hr.symm.trans hs
  have hrules : ∀ entity ∈ circularSchema.entities,
      ∀ p ∈ entity.permissions, p.rule.isNegationFree = true := by
    decide
  obtain ⟨entity, he, hp⟩ := Schema.permission?_eq_some_iff.mp hp
  exact Schema.isNegationFree_of_rules hrules (hrules entity
    (List.mem_of_find?_eq_some he) p (List.mem_of_find?_eq_some hp))

/-- The owner views the folder and is not denied to when it comes to be in
itself. The check fails then, since it goes from the folder to the folder
until it is too deep. Someone else is denied to view it and stays so when
the ownership is deleted. -/
theorem circular_folder_takes_nothing_away :
    let r := (Facts.mk [] fun _ => []).resolver circularSchema 3
      fun text _ => .error (.notEvaluated text)
    let filter : TupleFilter := { relation := some "of" }
    (r.overTuples [ownedFolder]).check (circularRequest "u") = .ok true ∧
    (r.overTuples [circularFolder, ownedFolder]).check (circularRequest "u")
      ≠ .ok false ∧
    (∃ f, (r.overTuples [circularFolder, ownedFolder]).check
      (circularRequest "u") = .error f ∧ f.IsTooDeep) ∧
    (circularService.apply (.check (circularRequest "u"))).1
      = .allowed true ∧
    ((circularService.withTuples "t" [circularFolder, ownedFolder]).apply
        (.check (circularRequest "u"))).1 ≠ .allowed false ∧
    ((circularService.apply (.writeRelationships "t" [circularFolder])).2.apply
        (.check (circularRequest "u"))).1 ≠ .allowed false ∧
    (circularService.apply (.check (circularRequest "v"))).1
      = .allowed false ∧
    ((circularService.apply (.deleteRelationships "t" filter)).2.apply
        (.check (circularRequest "v"))).1 ≠ .allowed true := by
  intro r filter
  have hfree : (circularService.resolver "t").AsksNegationFree
      (circularRequest "u") :=
    asksNegationFree_circular resolveSchema_circularService "u"
  have hdone : (circularService.apply
      (.writeRelationships "t" [circularFolder])).1 = .done :=
    coherent_circularService.apply_write_eq_done (by decide)
      resolveSchema_circularService (by decide) rfl
  have hu : (circularService.apply (.check (circularRequest "u"))).1
      = .allowed true := by
    rw [apply_check_circularService rfl, Resolver.checkInSchema_eq]
    rfl
  have hv : (circularService.apply (.check (circularRequest "v"))).1
      = .allowed false := by
    rw [apply_check_circularService rfl, Resolver.checkInSchema_eq]
    rfl
  obtain ⟨hresolver, hservice⟩ :=
    @more_tuples_take_nothing_away Condition.engine (circularRequest "u")
  obtain ⟨hmore, hwritten, -⟩ := hservice {} circularEvents hfree
  have hdeleted := (@more_tuples_take_nothing_away Condition.engine
    (circularRequest "v")).2 {} circularEvents
      (asksNegationFree_circular resolveSchema_circularService "v")
  have howned : (r.overTuples [ownedFolder]).check (circularRequest "u")
      = .ok true := Resolver.check_eq ..
  refine ⟨howned, ?_, ⟨_, Resolver.check_eq .., .inl ⟨3, rfl⟩⟩, hu, ?_,
    hwritten _ hdone hu, hv, hdeleted.2.2 filter hv⟩
  · refine hresolver r (asksNegationFree_circular rfl "u") [ownedFolder]
      [circularFolder, ownedFolder] [] ?_ howned
    decide
  · refine hmore [circularFolder, ownedFolder] [] ?_ hu
    have hstored : (circularService.facts "t").tuples = [ownedFolder] := rfl
    show ∀ t ∈ (circularService.facts "t").tuples ++ [], _
    rw [hstored]
    decide

end Service

end Entitlement
