import Entitlement.Proofs.Access.Expansion
import Entitlement.Proofs.Access.Pages

/-!
# Positive permissions are listed completely

A lookup checks the identifiers that occur in tuples, while a check may be
asked about any text at all. A permission that says `not`, or has an
expression, can well be held by someone whom no tuple mentions, and then a
lookup passes over them.

A *positive* permission cannot (`Schema.IsPositive`). However it is granted,
by a tuple, by way of a userset, as another permission or as one of a
parent, there is a tuple about the entity and a tuple that names the
subject itself, not necessarily the same one
(`Evaluation.mentions_of_evaluate`). So whoever a check allows is a
candidate, and lookups list them.
-/

namespace Entitlement

/-! ## Positive rules -/

/-- Whether a rule says no `not` and has no expression. -/
def PermissionRule.isPositive : PermissionRule → Bool
  | relation _ => true
  | binary _ left right => left.isPositive && right.isPositive
  | incomplete _ left => left.isPositive
  | member .. => true
  | not _ | notWith .. | inline _ | call .. => false

/-- The parts of a positive rule are positive. -/
theorem PermissionRule.isPositive_of_mem_parts {rule part : PermissionRule}
    (h : rule.isPositive = true) (hpart : part ∈ rule.parts) :
    part.isPositive = true := by
  cases rule <;> grind [parts, isPositive]

/-- **Whether nothing that a rule leads to** says `not` or has an
expression. -/
def Schema.IsPositive (s : Schema) (type : String) (rule : PermissionRule) :
    Prop :=
  ∀ type' rule', s.Reaches type rule type' rule' → rule'.isPositive = true

/-- In a schema of positive rules, all that is positive stays so. -/
theorem Schema.isPositive_of_rules {s : Schema}
    (hs : ∀ entity ∈ s.entities, ∀ p ∈ entity.permissions,
      p.rule.isPositive = true) {type : String} {rule : PermissionRule}
    (hrule : rule.isPositive = true) : s.IsPositive type rule :=
  fun _ _ h => h.passes (P := fun _ rule => rule.isPositive = true)
    (fun _ _ hrule _ => PermissionRule.isPositive_of_mem_parts hrule) hs hrule

/-! ## Mentions -/

/-- **Whether tuples mention an entity and the subject**: one is about the
entity, and one names the subject itself. -/
structure World.Mentions (w : World) (e : EntityRef) : Prop where
  entity : ∃ t ∈ w.tuples, t.entity = e
  subject : ∃ t ∈ w.tuples, t.isUserset = false ∧ t.subjectEntity = w.subject

/-- A tuple that gives a relation mentions both. -/
theorem World.HoldsDirectly.mentions {w : World} {e : EntityRef}
    {relation : String} (h : w.HoldsDirectly e relation) : w.Mentions e := by
  obtain ⟨t, ht, hu, he, -, hs⟩ := h
  exact ⟨⟨t, ht, he⟩, ⟨t, ht, hu, hs⟩⟩

namespace Evaluation

variable {q : Evaluation} {facts : Facts} {deeper : Deeper} {e : EntityRef}

theorem mentions_of_holdsDirectly (hr : q.resolver.Reads facts)
    {relation : String} (h : q.holdsDirectly e relation = .ok true) :
    (q.world facts).Mentions e :=
  ((holdsDirectly_eq_ok hr h).mp rfl).mentions

/-- A userset mentions the entity by the tuple that names it, and the
subject by the one that makes it a member. -/
theorem mentions_of_holdsViaUserset (hr : q.resolver.Reads facts)
    {relation : String} (h : q.holdsViaUserset e relation = .ok true) :
    (q.world facts).Mentions e := by
  obtain ⟨tuples, ht, h⟩ := Outcome.bind_eq_ok_iff.mp h
  obtain ⟨t, hmem, h⟩ := Outcome.exists_of_anyM h
  obtain ⟨hw, he, -⟩ := (tuplesOn_eq_ok hr ht t).mp hmem
  unfold holdsUserset at h
  split at h
  · cases h
  · exact ⟨⟨t, hw, he⟩, (mentions_of_holdsDirectly hr h).subject⟩

theorem mentions_of_holdsName (hr : q.resolver.Reads facts) {name : String}
    (hdeeper : ∀ p, q.schema.permission? e.type name = some p →
      deeper e p.rule = .ok true → (q.world facts).Mentions e)
    (h : q.holdsName deeper e name = .ok true) :
    (q.world facts).Mentions e := by
  unfold holdsName at h
  split at h
  next => cases h
  next entity he =>
    split at h
    next p hp =>
      exact hdeeper p (Schema.permission?_eq_some_iff.mpr ⟨entity, he, hp⟩) h
    next =>
      split at h
      next => cases h
      next =>
        obtain ⟨direct, hdirect, h⟩ := Outcome.bind_eq_ok_iff.mp h
        cases direct with
        | true => exact mentions_of_holdsDirectly hr hdirect
        | false => exact mentions_of_holdsViaUserset hr h

/-- A parent mentions the entity by the tuple that leads to it. -/
theorem mentions_of_holdsMember (hr : q.resolver.Reads facts)
    {relation permission : String}
    (hdeeper : ∀ entity r parent p, q.schema.entity? e.type = some entity →
      entity.relation? relation = some r → parent.type ∈ r.directTypes →
      q.schema.permission? parent.type permission = some p →
      deeper parent p.rule = .ok true → (q.world facts).Mentions parent)
    (h : q.holdsMember deeper e relation permission = .ok true) :
    (q.world facts).Mentions e := by
  unfold holdsMember at h
  split at h
  next => cases h
  next entity he =>
    split at h
    next => cases h
    next r hrel =>
      obtain ⟨parents, hparents, h⟩ := Outcome.bind_eq_ok_iff.mp h
      obtain ⟨parent, hparent, h⟩ := Outcome.exists_of_anyM h
      obtain ⟨_, _, -, -, t, ht, -, hte, -⟩ :=
        (parents_eq_ok hr he hrel hparents parent).mp hparent
      refine ⟨⟨t, ht, hte⟩, ?_⟩
      unfold holdsOnParent at h
      split at h
      next p hp =>
        rw [Outcome.mapError_eq_ok_iff] at h
        exact (hdeeper entity r parent p he hrel
          (mem_directTypes_of_parents hparents hparent) hp h).subject
      next => exact (mentions_of_holdsDirectly hr h).subject

/-- **One level of a positive rule that is granted mentions** the entity
and the subject, if the levels below do. -/
theorem mentions_of_step (hr : q.resolver.Reads facts)
    (hdeeper : ∀ {e rule}, q.schema.IsPositive e.type rule →
      deeper e rule = .ok true → (q.world facts).Mentions e)
    {rule : PermissionRule} (hx : q.schema.IsPositive e.type rule)
    (h : q.step deeper e rule = .ok true) : (q.world facts).Mentions e := by
  induction rule with
  | relation name =>
    exact mentions_of_holdsName hr
      (fun p hp => hdeeper fun _ _ hreach => hx _ _ (.name hp hreach)) h
  | binary op left right ihl ihr =>
    have hleft := ihl fun _ _ hreach => hx _ _ (.left hreach)
    have hright := ihr fun _ _ hreach => hx _ _ (.right hreach)
    -- whichever operand is granted, it mentions both
    cases op with
    | or =>
      obtain ⟨l, hl, h⟩ := Outcome.bind_eq_ok_iff.mp h
      cases l with
      | true => exact hleft hl
      | false => exact hright h
    | and =>
      obtain ⟨l, hl, h⟩ := Outcome.bind_eq_ok_iff.mp h
      cases l with
      | true => exact hleft hl
      | false => cases h
  | incomplete op left => cases h
  | not operand => cases hx _ _ .self
  | notWith operand spare => cases hx _ _ .self
  | member relation permission =>
    exact mentions_of_holdsMember hr
      (fun entity r parent p he hrel htype hp =>
        hdeeper fun _ _ hreach => hx _ _ (.member he hrel htype hp hreach)) h
  | inline expression => cases hx _ _ .self
  | call name arguments => cases hx _ _ .self

/-- **A positive rule that is granted mentions** the entity and the
subject, however deep the evaluation goes. -/
theorem mentions_of_evaluate (hr : q.resolver.Reads facts) (levels : Nat)
    {rule : PermissionRule} (hx : q.schema.IsPositive e.type rule)
    (h : q.evaluate levels e rule = .ok true) :
    (q.world facts).Mentions e := by
  induction levels generalizing e rule with
  | zero => cases h
  | succ levels ih => exact mentions_of_step hr (fun hx h => ih hx h) hx h

end Evaluation

/-! ## Lookups of positive permissions -/

namespace Lookup

variable {l : Lookup} {r : Resolver} {stored : List Tuple} {id : String}

/-- **Whether a lookup lists an identifier** as long as nothing is written:
it can be followed to its end in pages of any sizes, and in whatever sizes
that is done, the identifier is among those that are returned. -/
structure Lists (l : Lookup) (r : Resolver) (stored : List Tuple)
    (id : String) : Prop where
  exists_calls : ∀ sizes : Nat → Nat, ∃ visits, l.Calls none visits none ∧
    Visit.AllMeet r stored visits ∧
    visits.map Visit.size = (List.range visits.length).map sizes
  mem_allIds : ∀ visits, l.Calls none visits none →
    Visit.AllMeet r stored visits → id ∈ Visit.allIds visits

/-- Without failing reads an allowed candidate is listed. -/
theorem lists_of_allows (hr : r.ReadsTuples stored)
    (hf : ∀ f, ¬ r.FailsToRead f) (hv : l.validate = .ok ())
    {schema : Schema} (hs : r.resolveSchema l.version = .ok schema)
    {p : Permission} (hp : l.findPermission schema = .ok p)
    (hc : l.IsCandidate stored id) (ha : l.Allows r id) :
    l.Lists r stored id := by
  have hr' : r.InTime := fun _ => hf _
  obtain ⟨candidates, hcandidates⟩ : ∃ candidates,
      r.candidates l.filter l.contextual l.extract = .ok candidates := by
    cases ht : r.tuples l.filter with
    | error f => exact absurd (Or.inl ⟨_, ht⟩) (hf f)
    | ok tuples =>
      exact ⟨_, Outcome.bind_eq_ok_iff.mpr ⟨tuples, ht, rfl⟩⟩
  obtain ⟨answer, hanswer⟩ := exists_ask hr' hv hs hp hcandidates {}
  exact ⟨exists_calls hr' hr hanswer,
    fun visits h hsame => (h.mem_allIds_iff hsame).mpr ⟨hc, ha⟩⟩

end Lookup

namespace CheckRequest

/-- The lookup of the entities on which the subject holds the
permission. -/
def entities (c : CheckRequest) : Lookup :=
  .entities { c with entityType := c.entity.type }

/-- The lookup of the subjects that hold the permission on the entity. -/
def subjects (c : CheckRequest) : Lookup :=
  .subjects { c with subjectType := c.subject.type }

/-- Without blanks in the check there are none in the lookups. -/
theorem validate_lookups {c : CheckRequest} (hv : c.validate = .ok ()) :
    c.entities.validate = .ok () ∧ c.subjects.validate = .ok () := by
  rw [CheckRequest.validate, requireFields_eq_ok_iff] at hv
  constructor
  · show LookupEntityRequest.validate _ = .ok ()
    rw [LookupEntityRequest.validate, requireFields_eq_ok_iff]
    simp_all
  · show LookupSubjectRequest.validate _ = .ok ()
    rw [LookupSubjectRequest.validate, requireFields_eq_ok_iff]
    simp_all

end CheckRequest

namespace Resolver

/-- Folders are viewed by their owners and by whoever views the folder they
are in. -/
def nestedSchema : Schema :=
  { Evaluation.folderSchema with
    entities := [{
      name := "folder"
      relations := [⟨"parent", [⟨"folder", none⟩]⟩,
        ⟨"owner", [⟨"user", none⟩, ⟨"team", some "member"⟩]⟩]
      permissions := [⟨"view",
        .binary .or (.relation "owner") (.member "parent" "view")⟩] }] }

/-- A folder that is viewed by way of the one it is in, and of the team
that owns that one. -/
def nestedResolver : Resolver :=
  teamFacts.resolver nestedSchema 3 fun text _ => .error (.notEvaluated text)

/-- Whether the one member of the team views it. -/
def nestedRequest : CheckRequest where
  tenant := "t"
  entity := ⟨"folder", "b"⟩
  permission := "view"
  subject := ⟨"user", "u"⟩

end Resolver

end Entitlement
