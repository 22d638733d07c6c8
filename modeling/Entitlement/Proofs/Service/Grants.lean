import Entitlement.Proofs.Access.Concern
import Entitlement.Proofs.Service.OtherTuples

/-!
# What others are granted

A tuple that grants something to someone else does not concern a subject,
unless it may lead to a parent. So to write or to delete it, or to bring it
with the query, changes nothing for the subject: what a check answers stays,
and what it fails with too.

The tuple has to come without a subject relation. An empty one means the
same almost everywhere, but whoever looks for usersets follows it, and then
it may decide (`Service.empty_subject_relation_decides`).
-/

namespace Entitlement

/-- **Whether two lists of tuples are the same but for one tuple**, which is
added or removed anywhere. -/
def SameBut (t : Tuple) (tuples tuples' : List Tuple) : Prop :=
  AgreeOn (· != t) tuples tuples'

/-- Lists that are the same but for a tuple agree on what concerns a
subject, if the tuple does not. -/
theorem SameBut.agreeOn {t : Tuple} {tuples tuples' : List Tuple}
    (h : SameBut t tuples tuples') {subject : EntityRef} {schema : Schema}
    (hplain : t.subjectRelation = none) (hother : t.subjectEntity ≠ subject)
    (hgoes : schema.traverses t.entityType t.relation = false) :
    AgreeOn (schema.concerns subject) tuples tuples' := by
  refine h.of_imp fun x hx => ?_
  rw [bne_iff_ne]
  rintro rfl
  simp [Schema.concerns, hplain, hother, hgoes] at hx

namespace Service

variable {engine : ExpressionEngine}

/-! ## Granting others -/

/-- **Granting another subject does not affect this one.** A tuple without
a subject relation, which names another subject, may be added to what is
stored or to what the query brings, or removed from it: a check comes to the
same, its failures included, unless some permission of the entity type goes
on to parents by the relation. So it is for a resolver over any tuples, and
for a service in every state that it can come to. -/
theorem check_stays_when_others_are_granted {request : CheckRequest}
    {t : Tuple} (hplain : t.subjectRelation = none)
    (hother : t.subjectEntity ≠ request.subject) {contextual' : List Tuple}
    (hcontextual : SameBut t request.contextual contextual') :
    (∀ (r : Resolver) (stored stored' : List Tuple),
      (∀ schema, r.resolveSchema request.version = .ok schema →
        schema.traverses t.entityType t.relation = false) →
      SameBut t stored stored' →
      (r.overTuples stored').check { request with contextual := contextual' }
        = (r.overTuples stored).check request) ∧
    (∀ settings events,
      let s := ({ settings } : Service engine).after events
      (∀ schema,
        (s.resolver request.tenant).resolveSchema request.version
          = .ok schema →
        schema.traverses t.entityType t.relation = false) →
      ∀ stored',
        SameBut t (s.store.tenant request.tenant).tuples stored' →
        ((s.withTuples request.tenant stored').apply
            (.check { request with contextual := contextual' })).1
          = (s.apply (.check request)).1) := by
  have hresolver : ∀ (r : Resolver) (stored stored' : List Tuple),
      (∀ schema, r.resolveSchema request.version = .ok schema →
        schema.traverses t.entityType t.relation = false) →
      SameBut t stored stored' →
      (r.overTuples stored').check { request with contextual := contextual' }
        = (r.overTuples stored).check request := by
    intro r stored stored' hgoes hstored
    exact Resolver.check_overTuples
      (fun schema hs => hstored.agreeOn hplain hother (hgoes schema hs))
      (fun schema hs => hcontextual.agreeOn hplain hother (hgoes schema hs))
  refine ⟨hresolver, ?_⟩
  intro settings events s hgoes stored' hstored
  have hs : s.Coherent := (coherent_new settings).after events
  rw [(hs.withTuples request.tenant stored').fst_apply_check,
    hs.fst_apply_check]
  refine congrArg (showQuery .allowed) ?_
  show ((s.withTuples request.tenant stored').resolver request.tenant).check _
    = _
  rw [resolver_withTuples,
    hresolver (s.resolver request.tenant) _ stored' hgoes hstored,
    ← resolver_eq_overTuples]

/-- Whether someone views a document. -/
def viewRequest (contextual : List Tuple) : CheckRequest where
  tenant := "t"
  entity := ⟨"document", "d"⟩
  permission := "view"
  subject := ⟨"user", "u"⟩
  contextual := contextual

/-- Who owns a document views it, however many others come to own it. -/
theorem owner_views_among_others :
    (Resolver.documentResolver.overTuples
        [⟨"document", "d", "owner", "user", "u", none⟩,
          ⟨"document", "d", "owner", "user", "v", none⟩]).check
      (viewRequest [⟨"document", "d", "owner", "user", "v", none⟩])
      = .ok true := by
  have hcontextual : SameBut ⟨"document", "d", "owner", "user", "v", none⟩
      [] [⟨"document", "d", "owner", "user", "v", none⟩] := by
    unfold SameBut AgreeOn
    decide
  have hstored : SameBut ⟨"document", "d", "owner", "user", "v", none⟩
      [⟨"document", "d", "owner", "user", "u", none⟩]
      [⟨"document", "d", "owner", "user", "u", none⟩,
        ⟨"document", "d", "owner", "user", "v", none⟩] := by
    unfold SameBut AgreeOn
    decide
  have hgoes : ∀ schema,
      Resolver.documentResolver.resolveSchema none = .ok schema →
        schema.traverses "document" "owner" = false := by
    rintro schema ⟨⟩
    decide
  exact ((@check_stays_when_others_are_granted Condition.engine
    (viewRequest []) _ rfl (by decide) _ hcontextual).1
    Resolver.documentResolver _ _ hgoes hstored).trans (Resolver.check_eq ..)

/-- The query has the subject hold the empty relation of a team. -/
def emptyRelationTuple : Tuple :=
  ⟨"team", "x", "", "user", "u", none⟩

/-- The owner is a team, with an empty subject relation. -/
def emptyUsersetTuple : Tuple :=
  ⟨"document", "d", "owner", "team", "x", some ""⟩

/-- **An empty subject relation decides.** A tuple with one is no userset
and names another subject, and no permission goes on to parents by its
relation. Still someone comes to view the document when the query brings
it, since it is followed like a userset. -/
theorem empty_subject_relation_decides :
    emptyUsersetTuple.isUserset = false ∧
      emptyUsersetTuple.subjectEntity ≠ (viewRequest []).subject ∧
      Resolver.documentSchema.traverses "document" "owner" = false ∧
      (Resolver.documentResolver.overTuples []).check
          (viewRequest [emptyRelationTuple]) = .ok false ∧
      (Resolver.documentResolver.overTuples []).check
          (viewRequest [emptyRelationTuple, emptyUsersetTuple])
        = .ok true := by
  exact ⟨rfl, by decide, by decide, Resolver.check_eq .., Resolver.check_eq ..⟩

end Service

end Entitlement
