import Entitlement.Proofs.Access.Inert
import Entitlement.Proofs.Service.Queries

/-!
# What older schemas leave behind

When a new version of a schema is written, the tuples stay. Those that it
does not admit count for nothing where a check looks for parents, and for
nothing where it looks for the holders of a relation and does not find the
subject by them. They are inert, and a service answers every check as if they
had been removed (`Service.inert_tuples_decide_nothing`).

The others still count. The holders of a relation are looked up by exact
match, and what subjects the relation admits is asked when a tuple is written
only, so a tuple that names a user grants where the schema now admits teams
(`Service.leftover_tuple_grants`).
-/

namespace Entitlement

namespace Service

variable {engine : ExpressionEngine} {s : Service engine}

/-- The schemas of a coherent service are compiled, so in all of them
parents have what they are asked for. -/
theorem Coherent.findsMembers (h : s.Coherent) {tenant : String}
    {version : Option String} {schema : Schema}
    (hs : (s.resolver tenant).resolveSchema version = .ok schema) :
    schema.FindsMembers := by
  obtain ⟨stored, -, hcompile⟩ := h.readSchema_of_resolveSchema hs
  exact Schema.findsMembers_of_compileSchema hcompile

/-- **Inert tuples decide nothing.** Of the tuples that the schema of a
check does not admit, those may be removed that the check does not find when
it looks for the holders of a relation, all of them or some. If it brings no
tuples, it then comes to the same, its failures included: for a resolver with
a compiled schema over any tuples, of which the reads fail alike if they do,
and for a service in every state that it can come to. -/
theorem inert_tuples_decide_nothing {request : CheckRequest}
    (hcontextual : request.contextual = []) :
    (∀ check tenant version source createdAt schema,
      compileSchema check tenant version source createdAt = .ok schema →
      ∀ r : Resolver, r.resolveSchema request.version = .ok schema →
      ∀ stored, r.ReadsAlike stored → ∀ keep,
        (∀ t ∈ stored, keep t = false →
          schema.isInert stored request.subject t = true) →
        (r.overTuples (stored.filter keep)).check request
          = r.check request) ∧
    (∀ settings events,
      let s := ({ settings } : Service engine).after events
      let stored := (s.facts request.tenant).tuples
      ∀ keep,
        (∀ schema,
          (s.resolver request.tenant).resolveSchema request.version
            = .ok schema →
          ∀ t ∈ stored, keep t = false →
            schema.isInert stored request.subject t = true) →
        ((s.withTuples request.tenant (stored.filter keep)).apply
            (.check request)).1
          = (s.apply (.check request)).1) := by
  constructor
  · intro check tenant version source createdAt schema hcompile r hs stored
      hreads keep hinert
    refine Resolver.check_without_inert hcontextual hreads ?_ ?_
    · intro schema' hs'
      cases hs.symm.trans hs'
      exact Schema.findsMembers_of_compileSchema hcompile
    · intro schema' hs'
      cases hs.symm.trans hs'
      exact hinert
  · intro settings events s stored keep hinert
    have hs : s.Coherent := (coherent_new settings).after events
    have hsame := Resolver.check_without_inert hcontextual
      (readsAlike_resolver s request.tenant)
      (fun schema => hs.findsMembers) hinert
    have hkept := hs.fst_apply_query_withTuples (q := .check request) rfl
      (stored.filter keep)
    have hall := hs.fst_apply_query (.check request)
    exact hkept.trans ((congrArg (showQuery .allowed) hsame).trans hall.symm)

/-- Teams own documents. -/
def teamSchema : Schema where
  tenant := "t"
  version := "v"
  source := "entity user \x7b\x7d entity team \x7b\x7d entity doc \x7b " ++
    "relation of @team permission view = of \x7d"
  rules := []
  entities := [{ name := "user" }, { name := "team" }, {
    name := "doc"
    relations := [⟨"of", [⟨"team", none⟩]⟩]
    permissions := [⟨"view", .relation "of"⟩] }]
  createdAt := 1
  updatedAt := 1

theorem compile_teamSchema :
    compileSchema Condition.engine.refusal? "t" "v" teamSchema.source 1
      = .ok teamSchema :=
  Outcome.eq_ok_of_toOption (by decide +kernel)

/-- A team owns a document. -/
def teamTuple : Tuple :=
  ⟨"doc", "d", "of", "team", "x", none⟩

/-- Someone owns it, as users could before. -/
def leftoverTuple : Tuple :=
  ⟨"doc", "d", "of", "user", "u", none⟩

/-- So do the members of another team, as they could before. -/
def membersTuple : Tuple :=
  ⟨"doc", "d", "of", "team", "y", some "member"⟩

/-- It was filed in a folder once. -/
def filedTuple : Tuple :=
  ⟨"doc", "d", "in", "folder", "f", none⟩

/-- The tuples are stored, and then the schema. -/
def leftoverEvents : List Event :=
  [.storeTuples "t" [teamTuple, leftoverTuple, membersTuple, filedTuple],
    .storeSchema "t" ⟨"v", teamSchema.source, 1⟩]

/-- The service that they are stored for. -/
def leftoverService : Service Condition.engine :=
  ({} : Service _).after leftoverEvents

/-- Whether someone views the document. -/
def leftoverRequest (subject : EntityRef) : CheckRequest where
  tenant := "t"
  entity := ⟨"doc", "d"⟩
  permission := "view"
  subject := subject

theorem coherent_leftoverService : leftoverService.Coherent :=
  (coherent_new {}).after leftoverEvents

theorem resolveSchema_leftoverService :
    (leftoverService.resolver "t").resolveSchema none = .ok teamSchema := by
  have hmeant : leftoverService.store.meant "t" none
      = .ok ⟨"v", teamSchema.source, 1⟩ := rfl
  exact (coherent_leftoverService.resolveSchema_of_meant hmeant).trans
    compile_teamSchema

/-- Checks of it, over any tuples, are checks in this schema. -/
theorem check_leftoverService (subject : EntityRef)
    (hv : (leftoverRequest subject).validate = .ok ()) (tuples : List Tuple) :
    ((leftoverService.resolver "t").overTuples tuples).check
        (leftoverRequest subject)
      = ((leftoverService.resolver "t").overTuples tuples).checkInSchema
          teamSchema (leftoverRequest subject) :=
  Resolver.check_of_schema hv resolveSchema_leftoverService

/-- What is stored, in its order. -/
theorem tuples_leftoverService : (leftoverService.facts "t").tuples
    = [filedTuple, teamTuple, membersTuple, leftoverTuple] := rfl

/-- The team views the document, with the other tuples and without them. -/
theorem team_views_without_leftovers :
    ((leftoverService.withTuples "t" [teamTuple]).apply
        (.check (leftoverRequest ⟨"team", "x"⟩))).1 = .allowed true ∧
      (leftoverService.apply (.check (leftoverRequest ⟨"team", "x"⟩))).1
        = .allowed true ∧
      ((leftoverService.resolver "t").overTuples [teamTuple]).check
          (leftoverRequest ⟨"team", "x"⟩)
        = (leftoverService.resolver "t").check
            (leftoverRequest ⟨"team", "x"⟩) := by
  have hkept : ((leftoverService.withTuples "t" [teamTuple]).apply
      (.check (leftoverRequest ⟨"team", "x"⟩))).1 = .allowed true :=
    (coherent_leftoverService.apply_check_withTuples_iff rfl).mpr
      ((check_leftoverService ⟨"team", "x"⟩ rfl [teamTuple]).trans
        (Resolver.checkInSchema_eq ..))
  have hinert : ∀ t ∈ [filedTuple, teamTuple, membersTuple, leftoverTuple],
      (t == teamTuple) = false → teamSchema.isInert
        [filedTuple, teamTuple, membersTuple, leftoverTuple] ⟨"team", "x"⟩ t
          = true := by
    decide
  obtain ⟨hresolver, hservice⟩ := @inert_tuples_decide_nothing
    Condition.engine (leftoverRequest ⟨"team", "x"⟩) rfl
  have hsame := hservice {} leftoverEvents (· == teamTuple) (by
    intro schema hs
    cases resolveSchema_leftoverService.symm.trans hs
    exact hinert)
  refine ⟨hkept, hsame.symm.trans hkept, ?_⟩
  exact hresolver _ "t" "v" teamSchema.source 1 teamSchema compile_teamSchema
    (leftoverService.resolver "t") resolveSchema_leftoverService _
    (readsAlike_resolver leftoverService "t") (· == teamTuple) hinert

/-- **A tuple that the schema does not admit may grant.** The schema admits
teams as owners and no users. The tuple of a user is left over, and by it
the user views the document. Without what the schema does not admit they do
not. -/
theorem leftover_tuple_grants :
    (leftoverService.resolver "t").resolveSchema none = .ok teamSchema ∧
      leftoverTuple ∈ (leftoverService.facts "t").tuples ∧
      teamSchema.relationshipFault? leftoverTuple
        = some (.subjectNotAllowed ⟨"user", none⟩ "doc" "of") ∧
      (leftoverService.apply (.check (leftoverRequest ⟨"user", "u"⟩))).1
        = .allowed true ∧
      ((leftoverService.withTuples "t"
          ((leftoverService.facts "t").tuples.filter fun t =>
            (teamSchema.relationshipFault? t).isNone)).apply
          (.check (leftoverRequest ⟨"user", "u"⟩))).1 = .allowed false := by
  refine ⟨resolveSchema_leftoverService, ?_, by decide, ?_, ?_⟩
  · rw [tuples_leftoverService]
    decide
  · exact coherent_leftoverService.apply_check_iff.mpr
      ((check_leftoverService ⟨"user", "u"⟩ rfl _).trans
        (Resolver.checkInSchema_eq ..))
  · exact (coherent_leftoverService.apply_check_withTuples_iff rfl).mpr
      ((check_leftoverService ⟨"user", "u"⟩ rfl _).trans
        (Resolver.checkInSchema_eq ..))

end Service

end Entitlement
