import Entitlement.Proofs.Access.Depth
import Entitlement.Proofs.Service.Missing
import Entitlement.Proofs.Service.Transparency

/-!
# Where a failure is met

A failure of a check tells of two places at most: the permission that was
asked about, and the permission of the parent where it was met, if that is
another one. However many parents lie in between, they are not told of, and
neither are the permissions of one entity that refer to each other.

`Evaluation.Raises` says where a failure is met without any such telling. It
follows an evaluation that fails to the level that fails by itself, and keeps
the hops to parents on the way there. An evaluation fails exactly with what is
raised, told with the last of these hops (`Evaluation.evaluate_eq_error_iff`).
The invariant that carries the induction is that what was told once is not
told again, so the innermost hop stays.
-/

namespace Entitlement

/-! ## Failures and hops -/

/-- **A hop to a parent**, of which a permission is evaluated. -/
structure Hop where
  parent : EntityRef
  permission : String

namespace Failure

/-- Whether a failure is one that was raised, without a place. -/
def IsBare (f : Failure) : Prop :=
  ∀ entityType entityId permission source,
    f ≠ evaluating entityType entityId permission source

/-- Whether a failure is one of time. -/
def IsOfTime (f : Failure) : Prop :=
  ∃ milliseconds, f = timeout milliseconds

/-- **A failure told with the hop behind which it was met**, if there was
one. -/
def behind (f : Failure) : Option Hop → Failure
  | none => f
  | some hop => f.located hop.parent.type hop.parent.id hop.permission

variable {f g : Failure}

/-- A failure of time has no place. -/
theorem IsOfTime.located_eq (h : f.IsOfTime) (type id permission : String) :
    f.located type id permission = f := by
  obtain ⟨milliseconds, rfl⟩ := h
  rfl

/-- Any other one has. -/
theorem located_eq_evaluating (h : ¬ f.IsOfTime)
    (type id permission : String) :
    f.located type id permission = evaluating type id permission f := by
  cases f with
  | timeout milliseconds => exact absurd ⟨milliseconds, rfl⟩ h
  | _ => rfl

/-- What was raised is its own root cause. -/
theorem IsBare.rootCause_eq (h : f.IsBare) : f.rootCause = f := by
  cases f with
  | evaluating t i p source => exact absurd rfl (h t i p source)
  | _ => rfl

/-- What was raised is located as it is. -/
theorem IsBare.within_eq (h : f.IsBare) (type id permission : String) :
    f.within type id permission = f.located type id permission := by
  cases f with
  | evaluating t i p source => exact absurd rfl (h t i p source)
  | _ => rfl

/-- The place changes neither what a failure comes from -/
@[simp] theorem rootCause_behind (f : Failure) (hop : Option Hop) :
    (f.behind hop).rootCause = f.rootCause := by
  cases hop with
  | none => rfl
  | some hop => exact rootCause_located ..

/-- nor whether it is one of time. -/
@[simp] theorem isOfTime_behind (hop : Option Hop) :
    (f.behind hop).IsOfTime ↔ f.IsOfTime := by
  cases hop with
  | none => exact Iff.rfl
  | some hop =>
    by_cases htime : f.IsOfTime
    · rw [behind, htime.located_eq]
    · rw [behind, located_eq_evaluating htime]
      exact iff_of_false (fun ⟨_, h⟩ => nomatch h) htime

/-- **What was told once is not told again**: of several hops the last one
stays. -/
theorem IsBare.within_behind (h : f.IsBare) (hop : Hop) (hops : List Hop) :
    (f.behind hops.getLast?).within hop.parent.type hop.parent.id
        hop.permission = f.behind (hop :: hops).getLast? := by
  cases hlast : hops.getLast? with
  | none =>
    rw [List.getLast?_eq_none_iff] at hlast
    subst hlast
    exact h.within_eq _ _ _
  | some last =>
    have hcons : (hop :: hops).getLast? = some last := by
      rw [List.getLast?_cons, hlast]
      rfl
    rw [hcons]
    by_cases htime : f.IsOfTime
    · show (f.located _ _ _).within _ _ _ = f.located _ _ _
      rw [htime.located_eq last.parent.type, h.within_eq, htime.located_eq]
    · show (f.located _ _ _).within _ _ _ = f.located _ _ _
      rw [located_eq_evaluating htime]
      rfl

/-- The place says what was raised and where. -/
theorem IsBare.behind_injective (hf : f.IsBare) (hg : g.IsBare)
    (htime : ¬ f.IsOfTime) {hop hop' : Option Hop}
    (h : f.behind hop = g.behind hop') : g = f ∧ hop' = hop := by
  -- what has a place is not what was raised
  have hplaced : ∀ {x y : Failure} {hop : Hop}, ¬ x.IsOfTime → y.IsBare →
      x.behind (some hop) ≠ y := by
    intro x y hop hx hy hxy
    exact hy _ _ _ _ (hxy.symm.trans (located_eq_evaluating hx _ _ _))
  have hgtime : ¬ g.IsOfTime := by
    rwa [← isOfTime_behind hop', ← h, isOfTime_behind]
  cases hop with
  | none =>
    cases hop' with
    | none => exact ⟨h.symm, rfl⟩
    | some hop' => exact absurd h.symm (hplaced hgtime hf)
  | some hop =>
    cases hop' with
    | none => exact absurd h (hplaced htime hg)
    | some hop' =>
      obtain ⟨⟨type, id⟩, permission⟩ := hop
      obtain ⟨⟨type', id'⟩, permission'⟩ := hop'
      rw [behind, behind, located_eq_evaluating htime,
        located_eq_evaluating hgtime] at h
      cases h
      exact ⟨rfl, rfl⟩

end Failure

/-- A query that has come through all its levels fails without a place. -/
theorem Resolver.isBare_tooDeep (r : Resolver) : r.tooDeep.IsBare := by
  unfold tooDeep pastLimit
  split
  · exact nofun
  · exact nofun

/-- A search that fails met an element that fails, behind others that say
no. -/
theorem Outcome.exists_append_of_anyM_eq_error {α ε : Type}
    {p : α → Except ε Bool} {xs : List α} {e : ε}
    (h : xs.anyM p = .error e) : ∃ before x after,
      xs = before ++ x :: after ∧ (∀ y ∈ before, p y = .ok false) ∧
        p x = .error e := by
  induction xs with
  | nil => exact absurd h pure_ne_error
  | cons x xs ih =>
    rw [List.anyM_cons, bind_eq_error_iff] at h
    rcases h with h | ⟨found, hx, h⟩
    · exact ⟨[], x, xs, rfl, fun _ hy => absurd hy List.not_mem_nil, h⟩
    · cases found with
      | true => exact absurd h pure_ne_error
      | false =>
        obtain ⟨before, y, after, rfl, hbefore, hy⟩ := ih h
        exact ⟨x :: before, y, after, rfl,
          List.forall_mem_cons.mpr ⟨hx, hbefore⟩, hy⟩

/-- A search goes on behind elements that say no. -/
theorem Outcome.anyM_append_of_forall {α ε : Type} {p : α → Except ε Bool}
    {before after : List α} (h : ∀ y ∈ before, p y = .ok false) :
    (before ++ after).anyM p = after.anyM p := by
  induction before with
  | nil => rfl
  | cons x before ih =>
    obtain ⟨hx, hbefore⟩ := List.forall_mem_cons.mp h
    rw [List.cons_append, List.anyM_cons, hx]
    exact ih hbefore

namespace Evaluation

variable {q : Evaluation} {levels : Nat} {e parent : EntityRef}
  {rule : PermissionRule} {hops : List Hop} {f : Failure}

/-! ## Where a failure is raised -/

/-- **Whether a parent is asked for a permission**: a relation of the entity
leads to it, and the parents in front of it deny. -/
def AsksParent (q : Evaluation) (levels : Nat) (e : EntityRef)
    (relation permission : String) (parent : EntityRef) : Prop :=
  ∃ r before after, q.schema.relation? e.type relation = some r ∧
    q.parents e r = .ok (before ++ parent :: after) ∧
    ∀ other ∈ before,
      q.holdsOnParent (q.evaluate levels) permission other = .ok false

/-- **Where the failure of an evaluation is raised**: what is raised in a rule
of an entity with so many levels left, and by which hops to parents the
evaluation came to the level that raises it. -/
inductive Raises (q : Evaluation) :
    Nat → EntityRef → PermissionRule → List Hop → Failure → Prop
  /-- No level is left. -/
  | tooDeep {e : EntityRef} {rule : PermissionRule} :
      Raises q 0 e rule [] q.resolver.tooDeep
  /-- The level itself fails, whatever happens below it. -/
  | here {levels : Nat} {e : EntityRef} {rule : PermissionRule}
      {f : Failure} :
      (∀ deeper, q.step deeper e rule = .error f) →
        Raises q (levels + 1) e rule [] f
  /-- A permission of the same entity is evaluated, which is no hop. -/
  | name {levels : Nat} {e : EntityRef} {name : String} {p : Permission}
      {hops : List Hop} {f : Failure} :
      q.schema.permission? e.type name = some p →
        Raises q levels e p.rule hops f →
          Raises q (levels + 1) e (.relation name) hops f
  | left {levels : Nat} {e : EntityRef} {op : Connective}
      {left right : PermissionRule} {hops : List Hop} {f : Failure} :
      Raises q (levels + 1) e left hops f →
        Raises q (levels + 1) e (.binary op left right) hops f
  /-- The left operand leaves it to the right one. -/
  | right {levels : Nat} {e : EntityRef} {op : Connective}
      {left right : PermissionRule} {hops : List Hop} {f : Failure} :
      q.evaluate (levels + 1) e left = .ok (op == .and) →
        Raises q (levels + 1) e right hops f →
          Raises q (levels + 1) e (.binary op left right) hops f
  | not {levels : Nat} {e : EntityRef} {operand : PermissionRule}
      {hops : List Hop} {f : Failure} :
      Raises q (levels + 1) e operand hops f →
        Raises q (levels + 1) e (.not operand) hops f
  | notWith {levels : Nat} {e : EntityRef} {operand spare : PermissionRule}
      {hops : List Hop} {f : Failure} :
      Raises q (levels + 1) e operand hops f →
        Raises q (levels + 1) e (.notWith operand spare) hops f
  /-- A permission of a parent is evaluated, which is a hop. -/
  | parent {levels : Nat} {e parent : EntityRef}
      {relation permission : String} {p : Permission} {hops : List Hop}
      {f : Failure} :
      q.AsksParent levels e relation permission parent →
        q.schema.permission? parent.type permission = some p →
          Raises q levels parent p.rule hops f →
            Raises q (levels + 1) e (.member relation permission)
              (⟨parent, permission⟩ :: hops) f
  /-- A parent whose type lacks the permission is asked for a relation, which
  is no hop. -/
  | fallback {levels : Nat} {e parent : EntityRef}
      {relation permission : String} {f : Failure} :
      q.AsksParent levels e relation permission parent →
        q.schema.permission? parent.type permission = none →
          q.holdsDirectly parent permission = .error f →
            Raises q (levels + 1) e (.member relation permission) [] f

/-! ## What is raised is what an evaluation fails with -/

/-- A member that comes to ask a parent comes to what the parent says, unless
it denies. -/
theorem AsksParent.step_eq {relation permission : String}
    (h : q.AsksParent levels e relation permission parent)
    (hf : q.holdsOnParent (q.evaluate levels) permission parent = .error f) :
    q.step (q.evaluate levels) e (.member relation permission)
      = .error f := by
  obtain ⟨r, before, after, hr, hparents, hbefore⟩ := h
  obtain ⟨entity, he, hr⟩ := Schema.relation?_eq_some_iff.mp hr
  show q.holdsMember (q.evaluate levels) e relation permission = .error f
  rw [holdsMember_of_relation he hr, hparents]
  show (before ++ parent :: after).anyM _ = _
  rw [Outcome.anyM_append_of_forall hbefore, List.anyM_cons, hf]
  rfl

/-- What is raised has no place yet, if reads fail without one. -/
theorem Raises.isBare (hr : ∀ f, q.resolver.FailsToRead f → f.IsBare)
    (h : q.Raises levels e rule hops f) : f.IsBare := by
  induction h with
  | tooDeep => exact q.resolver.isBare_tooDeep
  | here hstep =>
    -- nothing below it fails, so the level has its own reason
    cases failsFor_of_step (hstep fun _ _ => .ok false) with
    | rule h => exact fun _ _ _ _ heq => by rw [heq] at h; exact h
    | read h => exact hr _ h
    | name _ _ h => cases h
    | parent _ _ h => cases h
  | fallback _ _ hdirect => exact hr _ (failsToRead_of_holdsDirectly hdirect)
  | name _ _ ih => exact ih
  | left _ ih => exact ih
  | right _ _ ih => exact ih
  | not _ ih => exact ih
  | notWith _ ih => exact ih
  | parent _ _ _ ih => exact ih

/-- **An evaluation fails with what is raised**, told with the last hop. -/
theorem Raises.evaluate_eq (hr : ∀ f, q.resolver.FailsToRead f → f.IsBare)
    (h : q.Raises levels e rule hops f) :
    q.evaluate levels e rule = .error (f.behind hops.getLast?) := by
  induction h with
  | tooDeep => rfl
  | here hstep => exact hstep _
  | @name levels e name p hops f hp _ ih =>
    obtain ⟨entity, he, hp⟩ := Schema.permission?_eq_some_iff.mp hp
    exact (holdsName_of_permission he hp).trans ih
  | @left levels e op left right hops f _ ih =>
    have ih : q.step (q.evaluate levels) e left = _ := ih
    cases op with
    | or => exact Outcome.bind_eq_error_iff.mpr (.inl ih)
    | and => exact Outcome.bind_eq_error_iff.mpr (.inl ih)
  | @right levels e op left right hops f hleft _ ih =>
    have hleft : q.step (q.evaluate levels) e left = _ := hleft
    cases op with
    | or => exact Outcome.bind_eq_error_iff.mpr (.inr ⟨false, hleft, ih⟩)
    | and => exact Outcome.bind_eq_error_iff.mpr (.inr ⟨true, hleft, ih⟩)
  | not _ ih => exact Outcome.map_eq_error_iff.mpr ih
  | notWith _ ih => exact Outcome.map_eq_error_iff.mpr ih
  | @parent levels e parent relation permission p hops f hasks hp hraises ih =>
    refine hasks.step_eq ?_
    rw [holdsOnParent_of_permission hp, ih]
    exact congrArg Except.error
      ((hraises.isBare hr).within_behind ⟨parent, permission⟩ hops)
  | fallback hasks hp hdirect =>
    exact hasks.step_eq ((holdsOnParent_of_none hp).trans hdirect)

/-! ## Whatever an evaluation fails with is raised -/

/-- A name that fails raises the failure itself, or it is the name of a
permission that does. -/
theorem exists_raises_of_holdsName
    (hbelow : ∀ {e rule f}, q.evaluate levels e rule = .error f →
      ∃ hops g, q.Raises levels e rule hops g) {name : String}
    (h : q.holdsName (q.evaluate levels) e name = .error f) :
    ∃ hops g, q.Raises (levels + 1) e (.relation name) hops g := by
  have hhere : (∀ deeper, q.holdsName deeper e name
      = q.holdsName (q.evaluate levels) e name) →
      ∃ hops g, q.Raises (levels + 1) e (.relation name) hops g :=
    fun hsame => ⟨[], f, .here fun deeper => (hsame deeper).trans h⟩
  cases he : q.schema.entity? e.type with
  | none => exact hhere fun deeper => by simp only [holdsName, he]
  | some entity =>
    cases hp : entity.permission? name with
    | some p =>
      rw [holdsName_of_permission he hp] at h
      obtain ⟨hops, g, hraises⟩ := hbelow h
      exact ⟨hops, g, .name
        (Schema.permission?_eq_some_iff.mpr ⟨entity, he, hp⟩) hraises⟩
    | none => exact hhere fun deeper => by simp only [holdsName, he, hp]

/-- A member that fails raises the failure itself, or a parent that is asked
does. -/
theorem exists_raises_of_holdsMember
    (hbelow : ∀ {e rule f}, q.evaluate levels e rule = .error f →
      ∃ hops g, q.Raises levels e rule hops g) {relation permission : String}
    (h : q.holdsMember (q.evaluate levels) e relation permission = .error f) :
    ∃ hops g,
      q.Raises (levels + 1) e (.member relation permission) hops g := by
  have hhere : (∀ deeper, q.holdsMember deeper e relation permission
      = q.holdsMember (q.evaluate levels) e relation permission) →
      ∃ hops g, q.Raises (levels + 1) e (.member relation permission) hops g :=
    fun hsame => ⟨[], f, .here fun deeper => (hsame deeper).trans h⟩
  cases he : q.schema.entity? e.type with
  | none => exact hhere fun deeper => by simp only [holdsMember, he]
  | some entity =>
    cases hrel : entity.relation? relation with
    | none => exact hhere fun deeper => by simp only [holdsMember, he, hrel]
    | some r =>
      cases hparents : q.parents e r with
      | error g =>
        refine hhere fun deeper => ?_
        rw [holdsMember_of_relation he hrel, holdsMember_of_relation he hrel,
          hparents]
        rfl
      | ok parents =>
        rw [holdsMember_of_relation he hrel, hparents] at h
        obtain ⟨before, parent, after, rfl, hbefore, hparent⟩ :=
          Outcome.exists_append_of_anyM_eq_error h
        have hasks : q.AsksParent levels e relation permission parent :=
          ⟨r, before, after,
            Schema.relation?_eq_some_iff.mpr ⟨entity, he, hrel⟩, hparents,
            hbefore⟩
        cases hp : q.schema.permission? parent.type permission with
        | some p =>
          rw [holdsOnParent_of_permission hp] at hparent
          obtain ⟨g, hg, -⟩ := Outcome.mapError_eq_error_iff.mp hparent
          obtain ⟨hops, root, hraises⟩ := hbelow hg
          exact ⟨_, root, .parent hasks hp hraises⟩
        | none =>
          rw [holdsOnParent_of_none hp] at hparent
          exact ⟨[], f, .fallback hasks hp hparent⟩

/-- **One level that fails raises something**, if the levels below do. -/
theorem exists_raises_of_step
    (hbelow : ∀ {e rule f}, q.evaluate levels e rule = .error f →
      ∃ hops g, q.Raises levels e rule hops g)
    (h : q.step (q.evaluate levels) e rule = .error f) :
    ∃ hops g, q.Raises (levels + 1) e rule hops g := by
  induction rule with
  | relation name => exact exists_raises_of_holdsName hbelow h
  | binary op left right ihl ihr =>
    have hleft : q.step (q.evaluate levels) e left = .error f →
        ∃ hops g, q.Raises (levels + 1) e (.binary op left right) hops g := by
      intro h
      obtain ⟨hops, g, hraises⟩ := ihl h
      exact ⟨hops, g, .left hraises⟩
    have hright : q.step (q.evaluate levels) e left = .ok (op == .and) →
        q.step (q.evaluate levels) e right = .error f →
        ∃ hops g, q.Raises (levels + 1) e (.binary op left right) hops g := by
      intro hl h
      obtain ⟨hops, g, hraises⟩ := ihr h
      exact ⟨hops, g, .right hl hraises⟩
    cases op with
    | or =>
      rcases Outcome.bind_eq_error_iff.mp h with h | ⟨l, hl, h⟩
      · exact hleft h
      · cases l with
        | true => exact absurd h Outcome.pure_ne_error
        | false => exact hright hl h
    | and =>
      rcases Outcome.bind_eq_error_iff.mp h with h | ⟨l, hl, h⟩
      · exact hleft h
      · cases l with
        | true => exact hright hl h
        | false => exact absurd h Outcome.pure_ne_error
  | incomplete op left => exact ⟨[], _, .here fun _ => rfl⟩
  | not operand ih =>
    obtain ⟨hops, g, hraises⟩ := ih (Outcome.map_eq_error_iff.mp h)
    exact ⟨hops, g, .not hraises⟩
  | notWith operand spare ih =>
    obtain ⟨hops, g, hraises⟩ := ih (Outcome.map_eq_error_iff.mp h)
    exact ⟨hops, g, .notWith hraises⟩
  | member relation permission => exact exists_raises_of_holdsMember hbelow h
  | inline expression => exact ⟨[], f, .here fun _ => h⟩
  | call name arguments => exact ⟨[], f, .here fun _ => h⟩

/-- **An evaluation that fails raises something.** -/
theorem exists_raises (h : q.evaluate levels e rule = .error f) :
    ∃ hops g, q.Raises levels e rule hops g := by
  induction levels generalizing e rule f with
  | zero => exact ⟨[], _, .tooDeep⟩
  | succ levels ih => exact exists_raises_of_step ih h

/-- **An evaluation fails exactly with what is raised**, told with the last
hop. -/
theorem evaluate_eq_error_iff
    (hr : ∀ f, q.resolver.FailsToRead f → f.IsBare) :
    q.evaluate levels e rule = .error f ↔
      ∃ hops root, q.Raises levels e rule hops root ∧
        f = root.behind hops.getLast? := by
  constructor
  · intro h
    obtain ⟨hops, root, hraises⟩ := exists_raises h
    exact ⟨hops, root, hraises,
      Except.error.inj (h.symm.trans (hraises.evaluate_eq hr))⟩
  · rintro ⟨hops, root, hraises, rfl⟩
    exact hraises.evaluate_eq hr

end Evaluation

/-! ## What a check reports -/

namespace Resolver

variable {r : Resolver} {schema : Schema} {request : CheckRequest}
  {hops : List Hop} {f root : Failure}

/-- **Where the failure of a check is raised**: what is raised in the rule of
the permission that is asked for. -/
def Raises (r : Resolver) (schema : Schema) (request : CheckRequest)
    (hops : List Hop) (root : Failure) : Prop :=
  ∃ p, schema.permission? request.entity.type request.permission = some p ∧
    (r.evaluation schema request).Raises (r.levelsLeft 0) request.entity p.rule
      hops root ∧ ¬ root.IsOfTime

/-- **What a check has to report** in a schema, other than that it took too
long. -/
inductive Reports (r : Resolver) (schema : Schema) (request : CheckRequest) :
    Failure → Prop
  | noEntity :
      schema.entity? request.entity.type = none →
        Reports r schema request (.entityNotFound request.entity.type)
  | noPermission {entity : EntityType} :
      schema.entity? request.entity.type = some entity →
        entity.permission? request.permission = none →
          Reports r schema request
            (.permissionNotFound request.entity.type request.permission)
  /-- No hop led to the failure, so it is told with what was asked alone. -/
  | here {root : Failure} :
      r.Raises schema request [] root →
        Reports r schema request
          (.evaluating request.entity.type request.entity.id
            request.permission root)
  /-- Else it is told with the last hop, too. -/
  | behind {hops : List Hop} {hop : Hop} {root : Failure} :
      r.Raises schema request (hops ++ [hop]) root →
        Reports r schema request
          (.evaluating request.entity.type request.entity.id
            request.permission
            (.evaluating hop.parent.type hop.parent.id hop.permission root))

/-- **Whether failures of a check tell exactly where they were met**: they are
what the check has to report, and what was raised is found in them as their
root cause, as it was raised. It is raised in one place only, as far as the
last hop. -/
structure TellsWhere (r : Resolver) (schema : Schema) (request : CheckRequest)
    (fails : Failure → Prop) : Prop where
  reports : ∀ f, ¬ f.IsOfTime → (fails f ↔ r.Reports schema request f)
  isBare : ∀ hops root, r.Raises schema request hops root → root.IsBare
  rootCause : ∀ hops root, r.Raises schema request hops root →
    ∃ f, fails f ∧ f.rootCause = root
  unique : ∀ hops root hops' root', r.Raises schema request hops root →
    r.Raises schema request hops' root' →
      root' = root ∧ hops'.getLast? = hops.getLast?

/-- A check in a schema evaluates the rule of the permission, if there is
one. -/
theorem check_eq_mapError (hv : request.validate = .ok ())
    (hs : r.resolveSchema request.version = .ok schema) {p : Permission}
    (hp : schema.permission? request.entity.type request.permission
      = some p) :
    r.check request = ((r.evaluation schema request).evaluate (r.levelsLeft 0)
      request.entity p.rule).mapError (Failure.located request.entity.type
        request.entity.id request.permission) := by
  rw [check_of_schema hv hs]
  exact checkInSchema_of_permission hp

/-- A check fails as the search for the permission does. -/
theorem check_of_findPermission (hv : request.validate = .ok ())
    (hs : r.resolveSchema request.version = .ok schema)
    (hf : findPermission schema request.entity.type request.permission
      = .error f) : r.check request = .error f := by
  rw [check_of_schema hv hs]
  show (findPermission schema _ _ >>= _) = _
  rw [hf]
  rfl

/-- What is raised has no place yet. -/
theorem Raises.isBare (hr : ∀ g, r.FailsToRead g → g.IsBare)
    (h : r.Raises schema request hops root) : root.IsBare := by
  obtain ⟨p, -, hraises, -⟩ := h
  exact Evaluation.Raises.isBare hr hraises

/-- **A check fails with what is raised**, told with the last hop and with
what was asked. -/
theorem check_of_raises (hr : ∀ g, r.FailsToRead g → g.IsBare)
    (hv : request.validate = .ok ())
    (hs : r.resolveSchema request.version = .ok schema)
    (h : r.Raises schema request hops root) :
    r.check request = .error (.evaluating request.entity.type
      request.entity.id request.permission (root.behind hops.getLast?)) := by
  obtain ⟨p, hp, hraises, htime⟩ := h
  rw [check_eq_mapError hv hs hp, hraises.evaluate_eq hr]
  exact congrArg Except.error (Failure.located_eq_evaluating
    (mt (Failure.isOfTime_behind _).mp htime) _ _ _)

/-- What was raised behind some hops is reported. -/
theorem Raises.reports (h : r.Raises schema request hops root) :
    r.Reports schema request (.evaluating request.entity.type
      request.entity.id request.permission (root.behind hops.getLast?)) := by
  rcases List.eq_nil_or_concat hops with rfl | ⟨before, hop, rfl⟩
  · exact .here h
  · rw [List.concat_eq_append] at h ⊢
    obtain ⟨-, -, -, htime⟩ := id h
    rw [List.getLast?_concat, Failure.behind,
      Failure.located_eq_evaluating htime]
    exact .behind h

/-- A permission that is not found is reported. -/
theorem reports_of_findPermission
    (hf : findPermission schema request.entity.type request.permission
      = .error f) : r.Reports schema request f := by
  unfold findPermission at hf
  split at hf
  next he =>
    cases hf
    exact .noEntity he
  next entity he =>
    split at hf
    next hp =>
      cases hf
      exact .noPermission he hp
    next => cases hf

/-- **Whatever a check fails with it has to report**, unless it took too
long. -/
theorem reports_of_check (hr : ∀ g, r.FailsToRead g → g.IsBare)
    (hv : request.validate = .ok ())
    (hs : r.resolveSchema request.version = .ok schema)
    (h : r.check request = .error f) (htime : ¬ f.IsOfTime) :
    r.Reports schema request f := by
  cases hfind : findPermission schema request.entity.type
      request.permission with
  | error g =>
    cases h.symm.trans (check_of_findPermission hv hs hfind)
    exact reports_of_findPermission hfind
  | ok p =>
    have hp := findPermission_eq_ok_iff.mp hfind
    rw [check_eq_mapError hv hs hp, Outcome.mapError_eq_error_iff] at h
    obtain ⟨g, hg, rfl⟩ := h
    obtain ⟨hops, root, hraises, rfl⟩ :=
      (Evaluation.evaluate_eq_error_iff hr).mp hg
    have hroot : ¬ root.IsOfTime := by
      intro hroot
      have hbehind := (Failure.isOfTime_behind hops.getLast?).mpr hroot
      rw [hbehind.located_eq] at htime
      exact htime hbehind
    rw [Failure.located_eq_evaluating
      (mt (Failure.isOfTime_behind _).mp hroot)]
    exact Raises.reports ⟨p, hp, hraises, hroot⟩

/-- **Whatever a check has to report it fails with.** -/
theorem Reports.check_eq (hr : ∀ g, r.FailsToRead g → g.IsBare)
    (hv : request.validate = .ok ())
    (hs : r.resolveSchema request.version = .ok schema)
    (h : r.Reports schema request f) : r.check request = .error f := by
  cases h with
  | noEntity he =>
    exact check_of_findPermission hv hs (by simp only [findPermission, he])
  | noPermission he hp =>
    exact check_of_findPermission hv hs (by simp only [findPermission, he, hp])
  | here h => exact check_of_raises hr hv hs h
  | @behind hops hop root h =>
    obtain ⟨-, -, -, htime⟩ := id h
    rw [check_of_raises hr hv hs h, List.getLast?_concat, Failure.behind,
      Failure.located_eq_evaluating htime]

/-- **A check tells where its failures were met**, if reads fail without a
place. -/
theorem tellsWhere_check (hr : ∀ g, r.FailsToRead g → g.IsBare)
    (hv : request.validate = .ok ())
    (hs : r.resolveSchema request.version = .ok schema) :
    r.TellsWhere schema request fun f => r.check request = .error f where
  reports f htime :=
    ⟨fun h => reports_of_check hr hv hs h htime, fun h => h.check_eq hr hv hs⟩
  isBare hops root h := h.isBare hr
  rootCause hops root h := by
    refine ⟨_, check_of_raises hr hv hs h, ?_⟩
    rw [Failure.rootCause, Failure.rootCause_behind]
    exact (h.isBare hr).rootCause_eq
  unique hops root hops' root' := by
    rintro ⟨p, hp, h, htime⟩ ⟨p', hp', h', -⟩
    cases hp.symm.trans hp'
    exact (h.isBare hr).behind_injective (h'.isBare hr) htime
      (Except.error.inj ((h.evaluate_eq hr).symm.trans (h'.evaluate_eq hr)))

end Resolver

namespace Service

variable {engine : ExpressionEngine}

/-- Reads of a service fail without a place. -/
theorem Coherent.isBare_of_failsToRead {s : Service engine} (hs : s.Coherent)
    {tenant : String} {f : Failure}
    (h : (s.resolver tenant).FailsToRead f) : f.IsBare := by
  have hf : f.IsOfReading := by
    rcases h with ⟨filter, h⟩ | ⟨e, h⟩
    · exact (hs.runsOn _ tenant).tuples h
    · exact (hs.runsOn _ tenant).attributes h
  rcases hf with ⟨error, rfl⟩ | ⟨milliseconds, rfl⟩
  · exact nofun
  · exact nofun

/-- **The failure of a check tells exactly where it was met.** Take any
resolver of which the reads fail without a place, in any schema and with
whatever it reads, and a valid request. Unless it takes too long, a check
fails exactly with what there is to report: that the entity type or the
permission that was asked for does not exist, or what was raised in the
evaluation, told with what was asked and, if hops to parents led to where it
was raised, with the last of these. Nothing is told a third time, and the root
cause is what was raised. So it is with a service in every state that it can
come to. -/
theorem failed_check_tells_where :
    (∀ r : Resolver, (∀ f, r.FailsToRead f → f.IsBare) →
      ∀ request schema, request.validate = .ok () →
        r.resolveSchema request.version = .ok schema →
        r.TellsWhere schema request fun f => r.check request = .error f) ∧
    (∀ settings events,
      let s := ({ settings } : Service engine).after events
      ∀ request schema, request.validate = .ok () →
        (s.resolver request.tenant).resolveSchema request.version
          = .ok schema →
        (s.resolver request.tenant).TellsWhere schema request fun f =>
          (s.apply (.check request)).1 = .error (.failure f)) := by
  refine ⟨fun r hr request schema => Resolver.tellsWhere_check hr, ?_⟩
  intro settings events s request schema hv hschema
  have hs : s.Coherent := (coherent_new settings).after events
  have hfails : ∀ f, (s.apply (.check request)).1 = .error (.failure f) ↔
      (s.resolver request.tenant).check request = .error f := by
    intro f
    rw [hs.fst_apply_check]
    unfold showQuery
    cases (s.resolver request.tenant).check request <;> simp
  simp only [hfails]
  exact Resolver.tellsWhere_check (fun f => hs.isBare_of_failsToRead) hv hschema

/-- A folder in a folder cannot be viewed for what is raised inside the outer
one, behind a hop to it. A service reports a permission that does not exist
as such. -/
theorem inner_check_tells_where :
    (∃ hops, (Resolver.innerResolver 1).Raises Resolver.openSchema
        Resolver.innerRequest (hops ++ [⟨⟨"folder", "a"⟩, "view"⟩])
        (.expression "open" (.notEvaluated "open"))) ∧
      (documentService.apply (.check (documentRequest "edit"))).1
        = .error (.failure (.permissionNotFound "document" "edit")) := by
  obtain ⟨hresolver, hservice⟩ :=
    @failed_check_tells_where (Condition.engineWith compileName)
  constructor
  · have hr : ∀ f, (Resolver.innerResolver 1).FailsToRead f → f.IsBare := by
      rintro f (⟨_, h⟩ | ⟨_, h⟩)
      · cases h
      · cases h
    have hwhere := hresolver (Resolver.innerResolver 1) hr
      Resolver.innerRequest Resolver.openSchema rfl rfl
    -- what the check fails with tells of two places
    have hreports := (hwhere.reports (.evaluating "folder" "b" "view"
      (.evaluating "folder" "a" "view" (.expression "open"
        (.notEvaluated "open")))) fun ⟨_, h⟩ => nomatch h).mp
          (Resolver.check_eq ..)
    generalize hf : Failure.evaluating "folder" "b" "view" _ = f at hreports
    cases hreports with
    | noEntity | noPermission => cases hf
    | here h =>
      cases hf
      exact absurd rfl (hwhere.isBare _ _ h _ _ _ _)
    | @behind _ hop _ h =>
      obtain ⟨⟨type, id⟩, permission⟩ := hop
      cases hf
      exact ⟨_, h⟩
  · have hs : documentService.Coherent := (coherent_new {}).after documentEvents
    have hmeant : documentService.store.meant "t" none
        = .ok ⟨"v", documentSchema.source, 0⟩ := rfl
    have hresolve : (documentService.resolver "t").resolveSchema none
        = .ok documentSchema :=
      (hs.resolveSchema_of_meant hmeant).trans compile_documentSchema
    exact ((hservice {} documentEvents (documentRequest "edit") documentSchema
      rfl hresolve).reports _ fun ⟨_, h⟩ => nomatch h).mpr
        (.noPermission rfl rfl)

end Service

end Entitlement
