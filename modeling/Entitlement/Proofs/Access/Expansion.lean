import Entitlement.Proofs.Access.AllRead
import Entitlement.Proofs.Access.Value
import Entitlement.Proofs.Schema.Reach

/-!
# Expansions and checks agree

An expansion is a tree of subjects. Given who belongs to a subject, the
tree has a truth value: a union is true if some child is, an intersection
if all are, an exclusion if its child is not. This value is what a check
answers (`Evaluation.truth_of_expand`).

The two are calculated apart. The expansion builds its whole tree, the
check leaves out what no longer matters, and they treat parents whose type
lacks the permission differently, so the rules have to be *expandable*:
they lead to no expression, and to no parent without the permission. Both
go down one level at the same places, so a tree that was built shows that
the check has levels enough.
-/

namespace Entitlement

/-! ## Truth values of trees -/

namespace ExpandTree

mutual

/-- **Whether a tree is true**, if `belongs` says which of its subjects
are. An expression is not a matter of subjects and counts as false. -/
def truth (belongs : SubjectRef → Bool) : ExpandTree → Bool
  | union _ children => truthAny belongs children
  | intersection children => truthAll belongs children
  | exclusion child => !child.truth belongs
  | .subject s => belongs s
  | expression _ => false

/-- Whether one of some trees is true. -/
def truthAny (belongs : SubjectRef → Bool) : List ExpandTree → Bool
  | [] => false
  | t :: ts => t.truth belongs || truthAny belongs ts

/-- Whether all of some trees are true. -/
def truthAll (belongs : SubjectRef → Bool) : List ExpandTree → Bool
  | [] => true
  | t :: ts => t.truth belongs && truthAll belongs ts

end

variable {belongs : SubjectRef → Bool}

/-- Among subjects, one is true if one belongs. -/
theorem truthAny_map_subject (subjects : List SubjectRef) :
    truthAny belongs (subjects.map .subject) = subjects.any belongs := by
  induction subjects with
  | nil => rfl
  | cons s subjects ih =>
    rw [List.map_cons, truthAny, truth, ih, List.any_cons]

end ExpandTree

/-! ## Rules that an expansion shows completely -/

/-- **Whether an expansion of a rule shows all that a check would ask**: it
leads to no expression, and every type whose entities may be parents has
the permission that they are asked for. -/
structure Schema.IsExpandable (s : Schema) (type : String)
    (rule : PermissionRule) : Prop where
  no_inline : ∀ type' expression,
    ¬ s.Reaches type rule type' (.inline expression)
  no_call : ∀ type' name arguments,
    ¬ s.Reaches type rule type' (.call name arguments)
  member : ∀ type' relation permission,
    s.Reaches type rule type' (.member relation permission) →
      ∀ entity r, s.entity? type' = some entity →
        entity.relation? relation = some r →
        ∀ target ∈ r.directTypes, (s.permission? target permission).isSome

namespace Schema.IsExpandable

variable {s : Schema} {type type' : String} {rule rule' : PermissionRule}

/-- What an expandable rule leads to is expandable. -/
theorem of_reaches (h : s.IsExpandable type rule)
    (hr : ∀ type'' rule'', s.Reaches type' rule' type'' rule'' →
      s.Reaches type rule type'' rule'') : s.IsExpandable type' rule' where
  no_inline type'' expression hi := h.no_inline type'' expression (hr _ _ hi)
  no_call type'' name arguments hc :=
    h.no_call type'' name arguments (hr _ _ hc)
  member type'' relation permission hm :=
    h.member type'' relation permission (hr _ _ hm)

end Schema.IsExpandable

/-- Whether a rule has no expression as a part, and no member that asks a
type for a permission that it lacks. -/
def PermissionRule.isPlain (s : Schema) (type : String) :
    PermissionRule → Bool
  | relation _ => true
  | binary _ left right => left.isPlain s type && right.isPlain s type
  | incomplete _ left => left.isPlain s type
  | not operand => operand.isPlain s type
  | notWith operand _ => operand.isPlain s type
  | member name permission =>
    ((s.entity? type).bind fun entity => entity.relation? name).all
      fun r => r.directTypes.all fun target =>
        (s.permission? target permission).isSome
  | inline _ => false
  | call _ _ => false

/-- The parts of a plain rule are plain. -/
theorem PermissionRule.isPlain_of_mem_parts {s : Schema} {type : String}
    {rule part : PermissionRule} (h : rule.isPlain s type = true)
    (hpart : part ∈ rule.parts) : part.isPlain s type = true := by
  cases rule <;> grind [parts, isPlain]

namespace Schema

variable {s : Schema}

/-- In a schema of plain rules, a plain rule leads to plain rules. -/
theorem isPlain_of_reaches
    (hs : ∀ entity ∈ s.entities, ∀ p ∈ entity.permissions,
      p.rule.isPlain s entity.name = true) {type type' : String}
    {rule rule' : PermissionRule} (h : s.Reaches type rule type' rule')
    (hrule : rule.isPlain s type = true) : rule'.isPlain s type' = true :=
  h.passes (P := fun type rule => rule.isPlain s type = true)
    (fun _ _ hrule _ => PermissionRule.isPlain_of_mem_parts hrule) hs hrule

/-- **In a schema of plain rules, plain rules are expandable.** -/
theorem isExpandable_of_isPlain
    (hs : ∀ entity ∈ s.entities, ∀ p ∈ entity.permissions,
      p.rule.isPlain s entity.name = true) {type : String}
    {rule : PermissionRule} (hrule : rule.isPlain s type = true) :
    s.IsExpandable type rule where
  no_inline type' expression h := by
    cases isPlain_of_reaches hs h hrule
  no_call type' name arguments h := by
    cases isPlain_of_reaches hs h hrule
  member type' relation permission h entity r he hr := by
    have hplain := isPlain_of_reaches hs h hrule
    rw [PermissionRule.isPlain, he, Option.bind_some, hr, Option.all_some,
      List.all_eq_true] at hplain
    exact hplain

end Schema

/-! ## Relations -/

namespace Evaluation

variable {q : Evaluation} {stored : List Tuple} {e : EntityRef}
  {relation : String}

/-- Holding directly is a tuple whose subject has no relation and is the
subject. -/
theorem any_grants_eq (hn : ∀ t ∈ stored, t.subjectRelation ≠ some "") :
    (stored.any fun t => t.grants e relation q.subject)
      = (stored.filter (TupleFilter.onRelation e relation).admits).any
          fun t => t.subjectRelation.isNone &&
            t.subject.includes stored q.subject := by
  rw [List.any_filter, Bool.eq_iff_iff, List.any_eq_true, List.any_eq_true]
  refine exists_congr fun t => and_congr_right fun ht => ?_
  rw [Bool.and_eq_true, TupleFilter.admits_onRelation]
  refine Iff.trans (isGrant_iff (q := q)) ?_
  cases hrel : t.subjectRelation with
  | none =>
    rw [SubjectRef.includes, show t.subject.relation = none from hrel]
    simp [Tuple.isUserset_of_none hrel, Tuple.subject, Tuple.subjectEntity,
      and_assoc]
  | some member =>
    simp [Tuple.isUserset_of_subjectRelation (hn t ht) hrel]

/-- **Holding a relation is that one of its subjects includes one.** -/
theorem holdsRelation_of_readsAll (hr : q.resolver.ReadsAll stored)
    (hn : ∀ t ∈ stored, t.subjectRelation ≠ some "")
    (hc : q.contextual = []) :
    (do if ← q.holdsDirectly e relation then pure true
        else q.holdsViaUserset e relation : Except Failure Bool)
      = .ok ((stored.filter (TupleFilter.onRelation e relation).admits).any
          fun t => t.subject.includes stored q.subject) := by
  have hsplit : ∀ tuples : List Tuple,
      (tuples.any fun t => t.subject.includes stored q.subject)
        = ((tuples.any fun t => t.subjectRelation.isNone &&
            t.subject.includes stored q.subject)
          || tuples.any fun t => t.subjectRelation.isSome &&
            t.subject.includes stored q.subject) := by
    intro tuples
    rw [Bool.eq_iff_iff, Bool.or_eq_true, List.any_eq_true, List.any_eq_true,
      List.any_eq_true, ← exists_or]
    refine exists_congr fun t => ?_
    cases t.subjectRelation with
    | none => simp
    | some member => simp
  rw [holdsDirectly_of_readsAll hr, holdsViaUserset_of_readsAll hr, hc,
    List.append_nil, any_grants_eq hn, hsplit]
  cases (stored.filter _).any fun t => t.subjectRelation.isNone &&
    t.subject.includes stored q.subject with
  | true => rfl
  | false => rfl

/-! ## One level -/

/-- The expansion with what an evaluation reads. -/
def expansion (q : Evaluation) : Expansion where
  resolver := q.resolver
  schema := q.schema

/-- **Whether a check answers what an expansion shows**, one level deeper:
for an expandable rule that has a tree, the answer is the truth value of
the tree. -/
def Follows (q : Evaluation) (stored : List Tuple) (deeper : Deeper)
    (expand : Expansion.Deeper) : Prop :=
  ∀ {e rule tree}, q.schema.IsExpandable e.type rule →
    expand e rule = .ok tree →
    deeper e rule = .ok (tree.truth (SubjectRef.includes stored q.subject))

variable {deeper : Deeper} {expand : Expansion.Deeper} {tree : ExpandTree}

/-- The subjects of a relation are the holders. -/
theorem holdsName_of_expandName (hr : q.resolver.ReadsAll stored)
    (hn : ∀ t ∈ stored, t.subjectRelation ≠ some "")
    (hc : q.contextual = []) (hd : q.Follows stored deeper expand)
    {name : String} (hx : q.schema.IsExpandable e.type (.relation name))
    (h : q.expansion.expandName expand e name = .ok tree) :
    q.holdsName deeper e name
      = .ok (tree.truth (SubjectRef.includes stored q.subject)) := by
  unfold Expansion.expandName at h
  split at h
  next => cases h
  next entity he =>
    split at h
    next p hp =>
      obtain ⟨child, hchild, h⟩ := Outcome.bind_eq_ok_iff.mp h
      cases h
      have hpermission : q.schema.permission? e.type name = some p :=
        Schema.permission?_eq_some_iff.mpr ⟨entity, he, hp⟩
      rw [holdsName_of_permission he hp,
        hd (hx.of_reaches fun _ _ => .name hpermission) hchild]
      simp [ExpandTree.truth, ExpandTree.truthAny]
    next hp =>
      split at h
      next => cases h
      next r hrel =>
        obtain ⟨tuples, ht, h⟩ := Outcome.bind_eq_ok_iff.mp h
        cases h
        cases (hr _).symm.trans ht
        rw [holdsName_of_relation he hp hrel,
          holdsRelation_of_readsAll hr hn hc, ExpandTree.truth,
          ExpandTree.truthAny_map_subject, Except.ok.injEq, Bool.eq_iff_iff,
          List.any_eq_true, List.any_eq_true]
        simp only [mem_ascending_iff SubjectRef.isFaithfulKey, List.mem_map]
        constructor
        · rintro ⟨t, ht, hs⟩
          exact ⟨t.subject, ⟨t, ht, rfl⟩, hs⟩
        · rintro ⟨s, ⟨t, ht, rfl⟩, hs⟩
          exact ⟨t, ht, hs⟩

/-- Without tuples of the query both find the same parents. -/
theorem parents_eq_expansion (hc : q.contextual = []) (r : Relation) :
    q.parents e r = q.expansion.parents e r := by
  unfold parents Expansion.parents tuplesOn
  rw [hc]
  show (q.resolver.tuples _ >>= _) >>= _ = q.resolver.tuples _ >>= _
  cases q.resolver.tuples (.onRelation e r.name) with
  | error f => rfl
  | ok tuples =>
    show Except.ok (ascending _ (List.map _ (List.filter _ (tuples ++ []))))
      = _
    rw [List.append_nil]
    rfl

/-- Parents that all have the permission are asked as they are shown. -/
theorem anyM_holdsOnParent_of_expand (hd : q.Follows stored deeper expand)
    {permission : String} {parents : List EntityRef}
    {trees : List (Option ExpandTree)}
    (hp : ∀ parent ∈ parents, ∃ p,
      q.schema.permission? parent.type permission = some p ∧
        q.schema.IsExpandable parent.type p.rule)
    (h : parents.mapM (q.expansion.expandParent expand permission)
      = .ok trees) :
    parents.anyM (q.holdsOnParent deeper permission)
      = .ok (ExpandTree.truthAny (SubjectRef.includes stored q.subject)
          (trees.filterMap id)) := by
  induction parents generalizing trees with
  | nil =>
    cases h
    rfl
  | cons parent parents ih =>
    rw [List.mapM_cons] at h
    obtain ⟨shown, hshown, h⟩ := Outcome.bind_eq_ok_iff.mp h
    obtain ⟨rest, hrest, h⟩ := Outcome.bind_eq_ok_iff.mp h
    cases h
    obtain ⟨p, hpermission, hx⟩ := hp parent List.mem_cons_self
    unfold Expansion.expandParent at hshown
    rw [show q.expansion.schema.permission? parent.type permission = some p
      from hpermission] at hshown
    obtain ⟨tree, htree, hshown⟩ := Outcome.bind_eq_ok_iff.mp hshown
    cases hshown
    rw [List.anyM_cons, holdsOnParent_of_permission hpermission, hd hx htree,
      ih (fun other ho => hp other (List.mem_cons_of_mem parent ho)) hrest]
    simp only [List.filterMap_cons, id_eq, ExpandTree.truthAny,
      ExpandTree.truth, Bool.or_false]
    cases tree.truth (SubjectRef.includes stored q.subject) with
    | true => rfl
    | false => rfl

/-- **The parents that are shown are the parents that are asked.** -/
theorem holdsMember_of_expandMember (hc : q.contextual = [])
    (hd : q.Follows stored deeper expand) {relation permission : String}
    (hx : q.schema.IsExpandable e.type (.member relation permission))
    (h : q.expansion.expandMember expand e relation permission = .ok tree) :
    q.holdsMember deeper e relation permission
      = .ok (tree.truth (SubjectRef.includes stored q.subject)) := by
  unfold Expansion.expandMember at h
  split at h
  next => cases h
  next r hfind =>
    obtain ⟨entity, he, hrel⟩ := Option.bind_eq_some_iff.mp hfind
    obtain ⟨parents, hparents, h⟩ := Outcome.bind_eq_ok_iff.mp h
    obtain ⟨trees, htrees, h⟩ := Outcome.bind_eq_ok_iff.mp h
    cases h
    rw [← parents_eq_expansion hc] at hparents
    rw [holdsMember_of_relation he hrel, hparents, ExpandTree.truth]
    refine anyM_holdsOnParent_of_expand hd (fun parent hp => ?_) htrees
    -- the type of a parent is one that the relation admits
    have htype : parent.type ∈ r.directTypes :=
      mem_directTypes_of_parents hparents hp
    obtain ⟨p, hpermission⟩ := Option.isSome_iff_exists.mp
      (hx.member e.type relation permission .self entity r he hrel
        parent.type htype)
    exact ⟨p, hpermission,
      hx.of_reaches fun _ _ => .member he hrel htype hpermission⟩

/-- **One level of a check answers what one level of an expansion
shows**, if the levels below do. -/
theorem truth_of_step (hr : q.resolver.ReadsAll stored)
    (hn : ∀ t ∈ stored, t.subjectRelation ≠ some "")
    (hc : q.contextual = []) (hd : q.Follows stored deeper expand) :
    q.Follows stored (q.step deeper) (q.expansion.step expand) := by
  intro e rule tree hx h
  induction rule generalizing tree with
  | relation name => exact holdsName_of_expandName hr hn hc hd hx h
  | binary op left right ihl ihr =>
    obtain ⟨l, hl, h⟩ := Outcome.bind_eq_ok_iff.mp h
    obtain ⟨r, hr, h⟩ := Outcome.bind_eq_ok_iff.mp h
    cases h
    have hleft := ihl (hx.of_reaches fun _ _ => .left) hl
    have hright := ihr (hx.of_reaches fun _ _ => .right) hr
    cases op with
    | or =>
      rw [step, hleft, hright]
      simp only [ExpandTree.truth, ExpandTree.truthAny, Bool.or_false]
      cases l.truth (SubjectRef.includes stored q.subject) with
      | true => rfl
      | false => rfl
    | and =>
      rw [step, hleft, hright]
      simp only [ExpandTree.truth, ExpandTree.truthAll, Bool.and_true]
      cases l.truth (SubjectRef.includes stored q.subject) with
      | true => rfl
      | false => rfl
  | incomplete op left =>
    obtain ⟨l, -, h⟩ := Outcome.bind_eq_ok_iff.mp h
    cases h
  | not operand ih =>
    obtain ⟨child, hchild, rfl⟩ := Outcome.map_eq_ok_iff.mp h
    rw [step, ih (hx.of_reaches fun _ _ => .not) hchild]
    rfl
  | notWith operand spare ih =>
    obtain ⟨child, hchild, rfl⟩ := Outcome.map_eq_ok_iff.mp h
    rw [step, ih (hx.of_reaches fun _ _ => .notWith) hchild]
    rfl
  | member relation permission =>
    exact holdsMember_of_expandMember hc hd hx h
  | inline expression => exact absurd .self (hx.no_inline e.type expression)
  | call name arguments => cases h

/-- **A check answers what an expansion with as many levels shows.** -/
theorem truth_of_expand (hr : q.resolver.ReadsAll stored)
    (hn : ∀ t ∈ stored, t.subjectRelation ≠ some "")
    (hc : q.contextual = []) (levels : Nat) :
    q.Follows stored (q.evaluate levels) (q.expansion.expand levels) := by
  induction levels with
  | zero =>
    intro e rule tree hx h
    cases h
  | succ levels ih => exact truth_of_step hr hn hc ih

end Evaluation

/-! ## Requests -/

/-- The check of a subject for the permission that is expanded. -/
def ExpandRequest.toCheck (r : ExpandRequest) (subject : EntityRef)
    (context : Attributes) : CheckRequest where
  tenant := r.tenant
  version := r.version
  entity := r.entity
  permission := r.permission
  subject := subject
  context := context

/-- With a subject without blanks, the check is as sound a request. -/
theorem ExpandRequest.validate_toCheck {r : ExpandRequest}
    (hv : r.validate = .ok ()) {subject : EntityRef}
    (htype : isBlankText subject.type = false)
    (hid : isBlankText subject.id = false) (context : Attributes) :
    (r.toCheck subject context).validate = .ok () := by
  rw [ExpandRequest.validate, requireFields_eq_ok_iff] at hv
  rw [CheckRequest.validate, requireFields_eq_ok_iff]
  simp only [List.forall_mem_cons] at hv ⊢
  obtain ⟨htenant, hetype, heid, hpermission, -⟩ := hv
  exact ⟨htenant, hetype, heid, hpermission, htype, hid,
    fun _ h => absurd h List.not_mem_nil⟩

namespace Resolver

/-- **Expansions and checks agree.** If the permission is expandable and an
expansion of it returns a tree, then a check without tuples of its own
answers, for every subject, the truth value of the tree: whatever is
stored, and however many levels the resolver allows. -/
theorem check_eq_truth_of_expand {r : Resolver} {stored : List Tuple}
    (hr : r.ReadsAll stored)
    (hn : ∀ t ∈ stored, t.subjectRelation ≠ some "")
    {request : ExpandRequest} {schema : Schema} {p : Permission}
    (hs : r.resolveSchema request.version = .ok schema)
    (hp : schema.permission? request.entity.type request.permission = some p)
    (hx : schema.IsExpandable request.entity.type p.rule)
    {tree : ExpandTree} (h : r.expand request = .ok tree)
    {subject : EntityRef} (htype : isBlankText subject.type = false)
    (hid : isBlankText subject.id = false) (context : Attributes) :
    r.check (request.toCheck subject context)
      = .ok (tree.truth (SubjectRef.includes stored subject)) := by
  rw [expand_eq] at h
  obtain ⟨⟨⟩, hv, h⟩ := Outcome.bind_eq_ok_iff.mp h
  obtain ⟨schema', hs', h⟩ := Outcome.bind_eq_ok_iff.mp h
  cases hs.symm.trans hs'
  obtain ⟨p', hp', h⟩ := Outcome.bind_eq_ok_iff.mp h
  cases hp.symm.trans (findPermission_eq_ok_iff.mp hp')
  have hvalid := request.validate_toCheck hv htype hid context
  refine (check_of_schema hvalid hs).trans ?_
  refine (checkInSchema_of_permission hp).trans ?_
  rw [Outcome.mapError_eq_ok_iff]
  exact Evaluation.truth_of_expand
    (q := r.evaluation schema (request.toCheck subject context)) hr hn rfl
    (r.levelsLeft 0) hx h

/-- A folder in another one, which is owned by a team of one. -/
def teamFacts : Facts where
  tuples := [⟨"folder", "a", "owner", "team", "x", some "member"⟩,
    ⟨"folder", "b", "parent", "folder", "a", none⟩,
    ⟨"team", "x", "member", "user", "u", none⟩]
  attributes _ := []

/-- The resolver of these folders. -/
def teamResolver : Resolver :=
  teamFacts.resolver Evaluation.folderSchema 3
    fun text _ => .error (.notEvaluated text)

/-- Who views the inner folder. -/
def teamRequest : ExpandRequest where
  tenant := "t"
  entity := ⟨"folder", "b"⟩
  permission := "view"

/-- The tree behind the outer folder shows the team. -/
def outerTree : ExpandTree :=
  .intersection [
    .union none [
      .union "owner" [.subject ⟨"team", "x", some "member"⟩],
      .union "parent.view" []],
    .exclusion (.union "hidden" [])]

/-- The tree behind the inner folder shows that of the outer one. -/
def innerTree : ExpandTree :=
  .intersection [
    .union none [
      .union "owner" [],
      .union "parent.view" [.union "folder:a#view" [outerTree]]],
    .exclusion (.union "hidden" [])]

/-- So the check of the one member of the team is answered. -/
theorem teamResolver_check_eq_truth :
    teamResolver.expand teamRequest = .ok innerTree ∧
      innerTree.truth (SubjectRef.includes teamFacts.tuples ⟨"user", "u"⟩)
        = true ∧
      teamResolver.check (teamRequest.toCheck ⟨"user", "u"⟩ [])
        = .ok true := by
  have hr : teamResolver.ReadsAll teamFacts.tuples := fun _ => rfl
  have hn : ∀ t ∈ teamFacts.tuples, t.subjectRelation ≠ some "" := by decide
  have hplain : ∀ entity ∈ Evaluation.folderSchema.entities,
      ∀ p ∈ entity.permissions,
        p.rule.isPlain Evaluation.folderSchema entity.name = true := by decide
  have htree : teamResolver.expand teamRequest = .ok innerTree := by
    rw [expand_eq]
    rfl
  have hblank : isBlankText "user" = false ∧ isBlankText "u" = false := by
    decide
  refine ⟨htree, by decide, ?_⟩
  exact check_eq_truth_of_expand hr hn rfl rfl
    (Schema.isExpandable_of_isPlain hplain rfl) htree hblank.1 hblank.2 []

end Resolver

end Entitlement
