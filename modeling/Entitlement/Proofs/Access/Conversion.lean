import Entitlement.Proofs.Access.Levels
import Entitlement.Proofs.Schema.Problems
import Entitlement.Proofs.Schema.Regeneration

/-!
# Rules and their expressions

Every expression has a rule, and is the expression of that rule. A rule that
arrives as data may have two shapes that no expression has: an `or` or `and`
without its right operand, and a `not` with a spare operand.

* Where a connective lacks its operand there is no expression, unless it
  stands in the spare operand of a `not`, which nobody looks at
  (`PermissionRule.Lacks`).
* A spare operand is left out: a rule has an expression exactly if that is
  the expression of which the rule is the same without its spare operands
  (`PermissionRule.toExpr_eq_ok_iff`). Whatever is read, both are evaluated
  alike (`Evaluation.evaluateAt_withoutSpares`).

So nothing is lost between rules and expressions but what means nothing, and
between documents and schemas nothing at all (`conversion_is_faithful`).
-/

namespace Entitlement

/-! ## Rules -/

namespace PermissionRule

/-- **Whether a rule has another one inside**, or is that one. What stands in
the spare operand of a negation is not inside. -/
inductive Contains : PermissionRule → PermissionRule → Prop
  | self (rule : PermissionRule) : Contains rule rule
  | part {rule part inner : PermissionRule} :
      part ∈ rule.parts → Contains part inner → Contains rule inner

/-- **Whether a connective in a rule lacks its right operand.** -/
def Lacks (rule : PermissionRule) (op : Connective) : Prop :=
  ∃ left, rule.Contains (.incomplete op left)

/-- **The rule without its spare operands.** -/
def withoutSpares : PermissionRule → PermissionRule
  | relation name => relation name
  | binary op left right => binary op left.withoutSpares right.withoutSpares
  | incomplete op left => incomplete op left.withoutSpares
  | not operand => not operand.withoutSpares
  | notWith operand _ => not operand.withoutSpares
  | member r permission => member r permission
  | inline expression => inline expression
  | call rule arguments => call rule arguments

variable {rule part : PermissionRule} {op : Connective} {e : PermissionExpr}

theorem Lacks.of_part (hpart : part ∈ rule.parts) (h : part.Lacks op) :
    rule.Lacks op :=
  h.imp fun _ => .part hpart

/-- The connective that is reported lacks its operand. -/
theorem lacks_of_toExpr (h : rule.toExpr = .error op) : rule.Lacks op := by
  induction rule with
  | relation | member | inline | call => cases h
  | incomplete op' left =>
    cases h
    exact ⟨left, .self _⟩
  | not operand ih =>
    exact (ih (Outcome.map_eq_error_iff.mp h)).of_part (by simp [parts])
  | notWith operand spare ih =>
    exact (ih (Outcome.map_eq_error_iff.mp h)).of_part (by simp [parts])
  | binary op' left right ihl ihr =>
    rcases Outcome.bind_eq_error_iff.mp h with h | ⟨_, -, h⟩
    · exact (ihl h).of_part (by simp [parts])
    rcases Outcome.bind_eq_error_iff.mp h with h | ⟨_, -, h⟩
    · exact (ihr h).of_part (by simp [parts])
    · exact absurd h Outcome.pure_ne_error

/-- Where a part has no expression, there is none of the whole. -/
theorem exists_toExpr_eq_error_of_part (hpart : part ∈ rule.parts)
    (h : ∃ op, part.toExpr = .error op) : ∃ op, rule.toExpr = .error op := by
  obtain ⟨op, h⟩ := h
  cases rule with
  | relation | member | inline | call => cases hpart
  | incomplete op' left => exact ⟨op', rfl⟩
  | not operand | notWith operand spare =>
    rw [parts, List.mem_singleton] at hpart
    subst hpart
    exact ⟨op, Outcome.map_eq_error_iff.mpr h⟩
  | binary op' left right =>
    rw [parts, List.mem_pair] at hpart
    rcases hpart with rfl | rfl
    · exact ⟨op, Outcome.bind_eq_error_iff.mpr (.inl h)⟩
    · -- the left operand is read first, and may fail before
      cases hleft : left.toExpr with
      | error op'' => exact ⟨op'', Outcome.bind_eq_error_iff.mpr (.inl hleft)⟩
      | ok l =>
        refine ⟨op, Outcome.bind_eq_error_iff.mpr (.inr ⟨l, hleft, ?_⟩)⟩
        exact Outcome.bind_eq_error_iff.mpr (.inl h)

/-- **A rule has no expression exactly if a connective in it lacks its
operand.** -/
theorem exists_toExpr_eq_error_iff :
    (∃ op, rule.toExpr = .error op) ↔ ∃ op, rule.Lacks op := by
  constructor
  · exact fun ⟨op, h⟩ => ⟨op, lacks_of_toExpr h⟩
  · rintro ⟨op, left, h⟩
    generalize hinner : incomplete op left = inner at h
    induction h with
    | self =>
      subst hinner
      exact ⟨op, rfl⟩
    | part hpart _ ih => exact exists_toExpr_eq_error_of_part hpart (ih hinner)

/-! ### Spare operands -/

/-- The rule of an expression has no spare operands. -/
@[simp] theorem withoutSpares_toRule (e : PermissionExpr) :
    e.toRule.withoutSpares = e.toRule := by
  induction e with
  | not operand ih => rw [PermissionExpr.toRule, withoutSpares, ih]
  | binary op left right ihl ihr =>
    rw [PermissionExpr.toRule, withoutSpares, ihl, ihr]
  | _ => rfl

/-- Spare operands do not show in an expression. -/
theorem toExpr_withoutSpares (rule : PermissionRule) :
    rule.withoutSpares.toExpr = rule.toExpr := by
  induction rule with
  | not operand ih | notWith operand spare ih =>
    rw [withoutSpares, toExpr, toExpr, ih]
  | binary op left right ihl ihr =>
    rw [withoutSpares, toExpr, toExpr, ihl, ihr]
  | _ => rfl

theorem toRule_of_toExpr (h : rule.toExpr = .ok e) :
    e.toRule = rule.withoutSpares := by
  induction rule generalizing e with
  | relation | member | inline | call =>
    cases h
    rfl
  | incomplete op' left => cases h
  | not operand ih | notWith operand spare ih =>
    obtain ⟨inner, hinner, rfl⟩ := Outcome.map_eq_ok_iff.mp h
    rw [PermissionExpr.toRule, ih hinner, withoutSpares]
  | binary op' left right ihl ihr =>
    obtain ⟨l, hl, h⟩ := Outcome.bind_eq_ok_iff.mp h
    obtain ⟨r, hr, h⟩ := Outcome.bind_eq_ok_iff.mp h
    rw [Outcome.pure_eq_ok_iff] at h
    subst h
    rw [PermissionExpr.toRule, ihl hl, ihr hr, withoutSpares]

/-- **The expression of a rule is the one whose rule is the same but for
spare operands.** -/
theorem toExpr_eq_ok_iff :
    rule.toExpr = .ok e ↔ e.toRule = rule.withoutSpares := by
  refine ⟨toRule_of_toExpr, fun h => ?_⟩
  rw [← toExpr_withoutSpares, ← h, PermissionExpr.toExpr_toRule]

end PermissionRule

/-! ## Evaluations -/

namespace Evaluation

/-- One level of an evaluation does not look at spare operands. -/
theorem step_withoutSpares (q : Evaluation) (deeper : Deeper) (e : EntityRef)
    (rule : PermissionRule) :
    q.step deeper e rule.withoutSpares = q.step deeper e rule := by
  induction rule with
  | not operand ih | notWith operand spare ih =>
    rw [PermissionRule.withoutSpares, step, step, ih]
  | binary op left right ihl ihr =>
    cases op <;> rw [PermissionRule.withoutSpares, step, step, ihl, ihr]
  | _ => rfl

/-- **A rule is evaluated as the same without its spare operands.** -/
theorem evaluateAt_withoutSpares (q : Evaluation) (depth : UInt32)
    (e : EntityRef) (rule : PermissionRule) :
    q.evaluateAt depth e rule.withoutSpares = q.evaluateAt depth e rule := by
  rw [evaluateAt_eq]
  cases q.resolver.levelsLeft depth with
  | zero => rfl
  | succ levels => exact q.step_withoutSpares (q.evaluate levels) e rule

end Evaluation

/-! ## Documents -/

/-- An attribute is converted exactly if its type exists. -/
theorem AttributeDecl.exists_toAttribute_iff {a : AttributeDecl}
    {entity : String} :
    (∃ attr, a.toAttribute entity = .ok attr) ↔
      a.typeName ∈ attributeTypeNames := by
  rw [← isSome_ofSpelling?_iff]
  unfold toAttribute
  cases ScalarType.ofSpelling? a.typeName <;> simp

/-- An attribute that is not converted is told with its type. -/
theorem AttributeDecl.toAttribute_eq_error {a : AttributeDecl}
    {entity : String} {f : Failure} (h : a.toAttribute entity = .error f) :
    a.typeName ∉ attributeTypeNames ∧
      f = .attributeType entity a.name a.typeName := by
  constructor
  · intro hknown
    obtain ⟨attr, hattr⟩ := exists_toAttribute_iff.mpr hknown
    cases hattr.symm.trans h
  · unfold toAttribute at h
    split at h <;> cases h
    rfl

namespace Document

variable {d : Document} {tenant version source : String} {createdAt : Int}

/-- In a document that has a schema, all attributes are of types that
exist. -/
theorem typeName_mem_of_toSchema {s : Schema}
    (h : d.toSchema tenant version source createdAt = .ok s) :
    ∀ e ∈ d.entities, ∀ a ∈ e.attributes,
      a.typeName ∈ attributeTypeNames := by
  obtain ⟨entities, hentities, -⟩ := Outcome.bind_eq_ok_iff.mp h
  intro e he a ha
  obtain ⟨entity, hentity⟩ :=
    Outcome.forall_exists_of_mapM hentities e he
  obtain ⟨attributes, hattributes, -⟩ := Outcome.bind_eq_ok_iff.mp hentity
  exact AttributeDecl.exists_toAttribute_iff.mp
    (Outcome.forall_exists_of_mapM hattributes a ha)

/-- **What keeps a document from having a schema** is an attribute of a type
that does not exist. -/
theorem toSchema_eq_error {f : Failure}
    (h : d.toSchema tenant version source createdAt = .error f) :
    ∃ e ∈ d.entities, ∃ a ∈ e.attributes,
      a.typeName ∉ attributeTypeNames ∧
        f = .attributeType e.name a.name a.typeName := by
  rcases Outcome.bind_eq_error_iff.mp h with h | ⟨_, -, h⟩
  · obtain ⟨e, he, h⟩ := Outcome.exists_of_mapM_eq_error h
    rcases Outcome.bind_eq_error_iff.mp h with h | ⟨_, -, h⟩
    · obtain ⟨a, ha, h⟩ := Outcome.exists_of_mapM_eq_error h
      exact ⟨e, he, a, ha, AttributeDecl.toAttribute_eq_error h⟩
    · exact absurd h Outcome.pure_ne_error
  · exact absurd h Outcome.pure_ne_error

end Document

/-! ## Both ways -/

/-- **Conversion is faithful**, both of rules and of documents.

* An expression is the expression of its rule.
* A rule has no expression exactly if an `or` or `and` in it lacks its right
  operand, and such a connective is what is told. If a rule has an
  expression, the rule of this expression is the same without the spare
  operands of negations, and both are evaluated alike, in any schema, from
  any data, at any depth and for any query.
* A document has no schema exactly if an attribute is of a type that does
  not exist, and such an attribute is what is told. Otherwise it is the
  document of its schema. -/
theorem conversion_is_faithful :
    (∀ e : PermissionExpr, e.toRule.toExpr = .ok e) ∧
    (∀ rule : PermissionRule,
      ((∃ f, rule.toExpr.mapError Failure.missingOperand = .error f) ↔
        ∃ op, rule.Lacks op) ∧
      (∀ f, rule.toExpr.mapError Failure.missingOperand = .error f →
        ∃ op, rule.Lacks op ∧ f = .missingOperand op) ∧
      ∀ e, rule.toExpr = .ok e →
        e.toRule = rule.withoutSpares ∧
        ∀ (q : Evaluation) depth entity,
          q.evaluateAt depth entity rule
            = q.evaluateAt depth entity e.toRule) ∧
    ∀ (d : Document) tenant version source createdAt,
      ((∀ e ∈ d.entities, ∀ a ∈ e.attributes,
        a.typeName ∈ attributeTypeNames) →
          ∃ s, d.toSchema tenant version source createdAt = .ok s ∧
            s.toDocument = .ok d) ∧
      ((∃ f, d.toSchema tenant version source createdAt = .error f) ↔
        ∃ e ∈ d.entities, ∃ a ∈ e.attributes,
          a.typeName ∉ attributeTypeNames) ∧
      ∀ f, d.toSchema tenant version source createdAt = .error f →
        ∃ e ∈ d.entities, ∃ a ∈ e.attributes,
          a.typeName ∉ attributeTypeNames ∧
            f = .attributeType e.name a.name a.typeName := by
  refine ⟨PermissionExpr.toExpr_toRule, fun rule => ⟨?_, ?_, ?_⟩, ?_⟩
  · rw [← PermissionRule.exists_toExpr_eq_error_iff]
    constructor
    · rintro ⟨f, h⟩
      obtain ⟨op, hop, -⟩ := Outcome.mapError_eq_error_iff.mp h
      exact ⟨op, hop⟩
    · rintro ⟨op, h⟩
      exact ⟨_, Outcome.mapError_eq_error_iff.mpr ⟨op, h, rfl⟩⟩
  · intro f h
    obtain ⟨op, hop, rfl⟩ := Outcome.mapError_eq_error_iff.mp h
    exact ⟨op, PermissionRule.lacks_of_toExpr hop, rfl⟩
  · intro e h
    have hrule := PermissionRule.toExpr_eq_ok_iff.mp h
    refine ⟨hrule, fun q depth entity => ?_⟩
    rw [hrule, q.evaluateAt_withoutSpares]
  intro d tenant version source createdAt
  have herror := fun f =>
    @Document.toSchema_eq_error d tenant version source createdAt f
  refine ⟨fun h => ?_, ⟨?_, ?_⟩, herror⟩
  · cases hs : d.toSchema tenant version source createdAt with
    | ok s => exact ⟨s, rfl, Document.toDocument_toSchema hs⟩
    | error f =>
      obtain ⟨e, he, a, ha, hunknown, -⟩ := herror f hs
      exact absurd (h e he a ha) hunknown
  · rintro ⟨f, h⟩
    obtain ⟨e, he, a, ha, hunknown, -⟩ := herror f h
    exact ⟨e, he, a, ha, hunknown⟩
  · rintro ⟨e, he, a, ha, hunknown⟩
    cases hs : d.toSchema tenant version source createdAt with
    | ok s =>
      exact absurd (Document.typeName_mem_of_toSchema hs e he a ha) hunknown
    | error f => exact ⟨f, rfl⟩

/-- A rule whose one negation has a spare operand that lacks its own. -/
def spareRule : PermissionRule :=
  .binary .or (.relation "owner")
    (.notWith (.relation "banned") (.incomplete .and (.relation "owner")))

/-- Who owns a thing or is not banned from it. -/
def spareExpr : PermissionExpr :=
  .binary .or (.name "owner") (.not (.name "banned"))

/-- A document with lists of a type as an attribute. -/
def levelDocument (typeName : String) : Document where
  entities := [{
    name := "document"
    attributes := [⟨"level", typeName, true⟩] }]

/-- What stands in a spare operand is never missed. A document with an
attribute of type `date` has no schema, and one with a list of `int` is the
document of its schema. -/
theorem spareRule_is_faithful :
    spareRule.toExpr = .ok spareExpr ∧
      spareRule ≠ spareExpr.toRule ∧
      (∀ (q : Evaluation) depth entity,
        q.evaluateAt depth entity spareRule
          = q.evaluateAt depth entity spareExpr.toRule) ∧
      (∃ s, (levelDocument "int").toSchema "t" "v" "" 0 = .ok s ∧
        s.toDocument = .ok (levelDocument "int")) ∧
      ∃ f, (levelDocument "date").toSchema "t" "v" "" 0 = .error f := by
  have hexpr : spareRule.toExpr = .ok spareExpr := rfl
  obtain ⟨-, hrules, hdocuments⟩ := conversion_is_faithful
  refine ⟨hexpr, by decide, ((hrules spareRule).2.2 spareExpr hexpr).2, ?_, ?_⟩
  · refine (hdocuments (levelDocument "int") "t" "v" "" 0).1 fun e he a ha => ?_
    rw [levelDocument, List.mem_singleton] at he
    subst he
    rw [List.mem_singleton] at ha
    subst ha
    decide
  · refine (hdocuments (levelDocument "date") "t" "v" "" 0).2.1.mpr ?_
    exact ⟨_, List.mem_singleton_self _, _, List.mem_singleton_self _,
      by decide⟩

end Entitlement
