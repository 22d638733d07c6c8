import Entitlement.Proofs.Access.Step
import Entitlement.Proofs.Access.World

/-!
# The value of a permission rule

What a permission rule says of an entity, apart from how it is evaluated.
`World.Value` gives the value of a rule in a world by rules of inference
that know no depth and no order: an `or` is true if either operand is,
whatever becomes of the other, and `relation.permission` is true if any
parent grants it. A rule need not have a value. Over cyclic data a
permission can refer back to itself, and then nothing decides it.

A rule never has two values (`World.Value.unique`). That is not for free,
since a rule of inference with a negated premise takes back what another
one grants; it holds because every rule of inference names the values of
its premises, so the derivations of two values take the same way until
they disagree about a tuple or an expression.

An evaluation that ends finds the value (`Evaluation.value_of_evaluate`).
It goes from left to right, stops early and counts levels, and none of
this shows in its answer: what it finds at one depth, it finds at every
depth at which it does not fail.
-/

namespace Entitlement

namespace World

variable {w : World}

/-- **The value of a rule of an entity.** -/
inductive Value (w : World) : EntityRef → PermissionRule → Bool → Prop
  /-- A name of a permission means the rule of the permission. -/
  | permission {e : EntityRef} {name : String} {p : Permission} {b : Bool} :
      w.schema.permission? e.type name = some p → Value w e p.rule b →
        Value w e (.relation name) b
  | held {e : EntityRef} {name : String} :
      w.schema.permission? e.type name = none → w.HoldsRelation e name →
        Value w e (.relation name) true
  | notHeld {e : EntityRef} {name : String} :
      w.schema.permission? e.type name = none → ¬w.HoldsRelation e name →
        Value w e (.relation name) false
  | not {e : EntityRef} {rule : PermissionRule} {b : Bool} :
      Value w e rule b → Value w e (.not rule) (!b)
  /-- The spare operand of a negation means nothing. -/
  | notWith {e : EntityRef} {rule spare : PermissionRule} {b : Bool} :
      Value w e rule b → Value w e (.notWith rule spare) (!b)
  | orLeft {e : EntityRef} {left right : PermissionRule} :
      Value w e left true → Value w e (.binary .or left right) true
  | orRight {e : EntityRef} {left right : PermissionRule} :
      Value w e right true → Value w e (.binary .or left right) true
  | orFalse {e : EntityRef} {left right : PermissionRule} :
      Value w e left false → Value w e right false →
        Value w e (.binary .or left right) false
  | andLeft {e : EntityRef} {left right : PermissionRule} :
      Value w e left false → Value w e (.binary .and left right) false
  | andRight {e : EntityRef} {left right : PermissionRule} :
      Value w e right false → Value w e (.binary .and left right) false
  | andTrue {e : EntityRef} {left right : PermissionRule} :
      Value w e left true → Value w e right true →
        Value w e (.binary .and left right) true
  /-- A parent whose type has the permission is asked for it. -/
  | memberPermission {e parent : EntityRef} {relation permission : String}
      {p : Permission} :
      w.IsParent e relation parent →
        w.schema.permission? parent.type permission = some p →
          Value w parent p.rule true →
            Value w e (.member relation permission) true
  /-- A parent whose type lacks it is asked for a relation of that name,
  held directly. -/
  | memberRelation {e parent : EntityRef} {relation permission : String} :
      w.IsParent e relation parent →
        w.schema.permission? parent.type permission = none →
          w.HoldsDirectly parent permission →
            Value w e (.member relation permission) true
  /-- What no parent grants is not granted. -/
  | memberFalse {e : EntityRef} {relation permission : String} :
      (∀ parent p, w.IsParent e relation parent →
        w.schema.permission? parent.type permission = some p →
          Value w parent p.rule false) →
      (∀ parent, w.IsParent e relation parent →
        w.schema.permission? parent.type permission = none →
          ¬w.HoldsDirectly parent permission) →
        Value w e (.member relation permission) false
  | inline {e : EntityRef} {expression : String} {b : Bool} :
      w.holds expression (w.conditionContext e) = .ok b →
        Value w e (.inline expression) b
  /-- The arguments of a call are counted and otherwise mean nothing. -/
  | call {e : EntityRef} {name : String} {arguments : List String}
      {rule : Rule} {b : Bool} :
      w.schema.rule? name = some rule →
        rule.parameters.length = arguments.length →
          w.holds rule.body (w.conditionContext e) = .ok b →
            Value w e (.call name arguments) b

/-- **A rule has at most one value.** -/
theorem Value.unique {e : EntityRef} {rule : PermissionRule} {b b' : Bool}
    (h : w.Value e rule b) (h' : w.Value e rule b') : b = b' := by
  induction h generalizing b' with
  | permission hp _ ih =>
    cases h' with
    | permission hp' h' =>
      cases hp.symm.trans hp'
      exact ih h'
    | held hp' => cases hp.symm.trans hp'
    | notHeld hp' => cases hp.symm.trans hp'
  | held hp hh =>
    cases h' with
    | permission hp' _ => cases hp.symm.trans hp'
    | held => rfl
    | notHeld _ hh' => exact absurd hh hh'
  | notHeld hp hh =>
    cases h' with
    | permission hp' _ => cases hp.symm.trans hp'
    | held _ hh' => exact absurd hh' hh
    | notHeld => rfl
  | not _ ih =>
    cases h' with
    | not h' => rw [ih h']
  | notWith _ ih =>
    cases h' with
    | notWith h' => rw [ih h']
  | orLeft _ ih =>
    cases h' with
    | orLeft => rfl
    | orRight => rfl
    | orFalse h' _ => exact ih h'
  | orRight _ ih =>
    cases h' with
    | orLeft => rfl
    | orRight => rfl
    | orFalse _ h' => exact ih h'
  | orFalse _ _ ihl ihr =>
    cases h' with
    | orLeft h' => exact ihl h'
    | orRight h' => exact ihr h'
    | orFalse => rfl
  | andLeft _ ih =>
    cases h' with
    | andLeft => rfl
    | andRight => rfl
    | andTrue h' _ => exact ih h'
  | andRight _ ih =>
    cases h' with
    | andLeft => rfl
    | andRight => rfl
    | andTrue _ h' => exact ih h'
  | andTrue _ _ ihl ihr =>
    cases h' with
    | andLeft h' => exact ihl h'
    | andRight h' => exact ihr h'
    | andTrue => rfl
  | memberPermission hparent hp _ ih =>
    cases h' with
    | memberPermission => rfl
    | memberRelation => rfl
    | memberFalse hall _ => exact ih (hall _ _ hparent hp)
  | memberRelation hparent hp hd =>
    cases h' with
    | memberPermission => rfl
    | memberRelation => rfl
    | memberFalse _ hnone => exact absurd hd (hnone _ hparent hp)
  | memberFalse _ hnone ih =>
    cases h' with
    | memberPermission hparent hp h' => exact ih _ _ hparent hp h'
    | memberRelation hparent hp hd => exact absurd hd (hnone _ hparent hp)
    | memberFalse => rfl
  | inline hb =>
    cases h' with
    | inline hb' =>
      cases hb.symm.trans hb'
      rfl
  | call hrule _ hb =>
    cases h' with
    | call hrule' _ hb' =>
      cases hrule.symm.trans hrule'
      cases hb.symm.trans hb'
      rfl

end World

/-! ## Evaluations find values -/

namespace Evaluation

variable {q : Evaluation} {facts : Facts} {deeper : Deeper} {e : EntityRef}

/-- Whether what happens one level deeper finds values only. -/
def FindsValues (q : Evaluation) (facts : Facts) (deeper : Deeper) : Prop :=
  ∀ {e rule b}, deeper e rule = .ok b → (q.world facts).Value e rule b

/-- A name is evaluated to its value. -/
theorem value_of_holdsName (hr : q.resolver.Reads facts)
    (hn : (q.world facts).IsNormal) (hd : FindsValues q facts deeper)
    {name : String} {b : Bool} (h : q.holdsName deeper e name = .ok b) :
    (q.world facts).Value e (.relation name) b := by
  unfold holdsName at h
  split at h
  · cases h
  next entity he =>
    split at h
    next p hp =>
      have hperm := (Schema.permission?_of_entity he name).trans hp
      exact .permission hperm (hd h)
    next hp =>
      have hperm := (Schema.permission?_of_entity he name).trans hp
      split at h
      · cases h
      · obtain ⟨direct, hdirect, h⟩ := Outcome.bind_eq_ok_iff.mp h
        have hiff := holdsDirectly_eq_ok hr hdirect
        cases direct with
        | true =>
          cases h
          exact .held hperm (Or.inl (hiff.mp rfl))
        | false =>
          have hviaiff := holdsViaUserset_eq_ok hr hn h
          cases b with
          | true => exact .held hperm (Or.inr (hviaiff.mp rfl))
          | false =>
            refine .notHeld hperm ?_
            rintro (hh | hh)
            · exact Bool.false_ne_true (hiff.mpr hh)
            · exact Bool.false_ne_true (hviaiff.mpr hh)

/-- A member of the parents is evaluated to its value. -/
theorem value_of_holdsMember (hr : q.resolver.Reads facts)
    (hd : FindsValues q facts deeper) {relation permission : String}
    {b : Bool} (h : q.holdsMember deeper e relation permission = .ok b) :
    (q.world facts).Value e (.member relation permission) b := by
  unfold holdsMember at h
  split at h
  · cases h
  next entity he =>
    split at h
    · cases h
    next r hrel =>
      obtain ⟨parents, hparents, h⟩ := Outcome.bind_eq_ok_iff.mp h
      have hmem := parents_eq_ok hr he hrel hparents
      cases b with
      | true =>
        obtain ⟨parent, hparent, h⟩ := Outcome.exists_of_anyM h
        rw [hmem] at hparent
        unfold holdsOnParent at h
        split at h
        next p hp =>
          rw [Outcome.mapError_eq_ok_iff] at h
          exact .memberPermission hparent hp (hd h)
        next hp =>
          exact .memberRelation hparent hp
            ((holdsDirectly_eq_ok hr h).mp rfl)
      | false =>
        have hall := Outcome.forall_of_anyM h
        refine .memberFalse ?_ ?_
        · intro parent p hparent hp
          have hno := hall parent ((hmem parent).mpr hparent)
          rw [holdsOnParent_of_permission hp] at hno
          exact hd (Outcome.mapError_eq_ok_iff.mp hno)
        · intro parent hparent hp hheld
          have hno := hall parent ((hmem parent).mpr hparent)
          rw [holdsOnParent_of_none hp] at hno
          exact Bool.false_ne_true ((holdsDirectly_eq_ok hr hno).mpr hheld)

/-- An expression is evaluated over what its entity sees. -/
theorem holds_of_satisfies (hr : q.resolver.Reads facts)
    {rule expression : String} {b : Bool}
    (h : q.satisfies e rule expression = .ok b) :
    q.resolver.holds expression ((q.world facts).conditionContext e)
      = .ok b := by
  obtain ⟨resource, hresource, h⟩ := Outcome.bind_eq_ok_iff.mp h
  obtain ⟨subject, hsubject, h⟩ := Outcome.bind_eq_ok_iff.mp h
  rw [Outcome.mapError_eq_ok_iff, hr.attributes_eq hresource,
    hr.attributes_eq hsubject] at h
  exact h

/-- A call is evaluated to its value. -/
theorem value_of_satisfiesRule (hr : q.resolver.Reads facts) {name : String}
    {arguments : List String} {b : Bool}
    (h : q.satisfiesRule e name arguments = .ok b) :
    (q.world facts).Value e (.call name arguments) b := by
  unfold satisfiesRule at h
  split at h
  · cases h
  next rule hrule =>
    split at h
    next hlen => exact .call hrule hlen (holds_of_satisfies hr h)
    next => cases h

/-- **One level of an evaluation finds a value**, if the levels below it
do. -/
theorem value_of_step (hr : q.resolver.Reads facts)
    (hn : (q.world facts).IsNormal) (hd : FindsValues q facts deeper)
    {rule : PermissionRule} {b : Bool} (h : q.step deeper e rule = .ok b) :
    (q.world facts).Value e rule b := by
  induction rule generalizing b with
  | relation name => exact value_of_holdsName hr hn hd h
  | binary op left right ihl ihr =>
    cases op with
    | or =>
      obtain ⟨l, hl, h⟩ := Outcome.bind_eq_ok_iff.mp h
      cases l with
      | true =>
        cases h
        exact .orLeft (ihl hl)
      | false =>
        cases b with
        | true => exact .orRight (ihr h)
        | false => exact .orFalse (ihl hl) (ihr h)
    | and =>
      obtain ⟨l, hl, h⟩ := Outcome.bind_eq_ok_iff.mp h
      cases l with
      | false =>
        cases h
        exact .andLeft (ihl hl)
      | true =>
        cases b with
        | true => exact .andTrue (ihl hl) (ihr h)
        | false => exact .andRight (ihr h)
  | incomplete op left => cases h
  | not operand ih =>
    obtain ⟨b, ho, rfl⟩ := Outcome.map_eq_ok_iff.mp h
    exact .not (ih ho)
  | notWith operand spare ih =>
    obtain ⟨b, ho, rfl⟩ := Outcome.map_eq_ok_iff.mp h
    exact .notWith (ih ho)
  | member relation permission => exact value_of_holdsMember hr hd h
  | inline expression => exact .inline (holds_of_satisfies hr h)
  | call name arguments => exact value_of_satisfiesRule hr h

/-- **An evaluation finds a value**, with any number of levels. -/
theorem value_of_evaluate (hr : q.resolver.Reads facts)
    (hn : (q.world facts).IsNormal) {levels : Nat} {rule : PermissionRule}
    {b : Bool} (h : q.evaluate levels e rule = .ok b) :
    (q.world facts).Value e rule b := by
  induction levels generalizing e rule b with
  | zero => cases h
  | succ levels ih => exact value_of_step hr hn (fun h => ih h) h

/-- **What an evaluation answers is the value of the rule, and there is no
other**, whatever the depth at which it starts, the limit that it keeps to
and the reads that fail. -/
theorem evaluateAt_finds_the_value (hr : q.resolver.Reads facts)
    (hn : (q.world facts).IsNormal) :
    (∀ depth e rule b, q.evaluateAt depth e rule = .ok b →
      (q.world facts).Value e rule b) ∧
    (∀ e rule b b', (q.world facts).Value e rule b →
      (q.world facts).Value e rule b' → b = b') := by
  constructor
  · intro depth e rule b h
    rw [evaluateAt_eq] at h
    exact value_of_evaluate hr hn h
  · intro e rule b b' h h'
    exact h.unique h'

/-- Two folders that are each a parent of the other. Whoever owns a folder
views it and what lies in it, unless it is hidden from them. -/
def folderSchema : Schema where
  tenant := "t"
  version := "v"
  source := ""
  rules := []
  entities := [{
    name := "folder"
    relations := [⟨"parent", [⟨"folder", none⟩]⟩,
      ⟨"owner", [⟨"user", none⟩, ⟨"team", some "member"⟩]⟩,
      ⟨"hidden", [⟨"user", none⟩]⟩]
    permissions := [⟨"view", .binary .and
      (.binary .or (.relation "owner") (.member "parent" "view"))
      (.not (.relation "hidden"))⟩] }]
  createdAt := 0
  updatedAt := 0

/-- The first folder is owned by a team, and both are in each other. -/
def folderFacts : Facts where
  tuples := [⟨"folder", "a", "owner", "team", "x", some "member"⟩,
    ⟨"folder", "a", "parent", "folder", "b", none⟩,
    ⟨"folder", "b", "parent", "folder", "a", none⟩]
  attributes _ := []

/-- Someone whom the query itself puts into the team. -/
def folderEvaluation : Evaluation where
  resolver := folderFacts.resolver folderSchema 3
    fun text _ => .error (.notEvaluated text)
  schema := folderSchema
  subject := ⟨"user", "u"⟩
  contextual := [⟨"team", "x", "member", "user", "u", none⟩]
  context := []

/-- The second folder is viewed by way of the first and of its team, though
the parents go round in a circle. -/
theorem folderEvaluation_finds_view :
    folderEvaluation.evaluateAt 0 ⟨"folder", "b"⟩ (.relation "view")
      = .ok true ∧
    (folderEvaluation.world folderFacts).Value ⟨"folder", "b"⟩
      (.relation "view") true := by
  have hr : folderEvaluation.resolver.Reads folderFacts :=
    folderFacts.reads_resolver ..
  have hn : (folderEvaluation.world folderFacts).IsNormal := by
    unfold World.IsNormal
    decide
  have h : folderEvaluation.evaluateAt 0 ⟨"folder", "b"⟩ (.relation "view")
      = .ok true := by
    rw [evaluateAt_eq]
    rfl
  exact ⟨h, (evaluateAt_finds_the_value hr hn).1 0 _ _ _ h⟩

end Evaluation

end Entitlement
