import Entitlement.Schema.Basic

/-!
# What a rule leads to

A permission rule leads to its parts, by the name of a permission to the
rule of that permission on the same entity type, and by `relation.permission`
to the rule of that permission on every type whose entities the relation
admits as they are. `Schema.Reaches` is this relation between rules, each
on an entity type. It speaks of the schema alone: which of the rules an
evaluation meets depends on the tuples besides.
-/

namespace Entitlement

/-- The relation of a name on the entity type of a name. -/
def Schema.relation? (s : Schema) (entityType relation : String) :
    Option Relation :=
  (s.entity? entityType).bind fun e => e.relation? relation

/-- The entity type and the relation behind a relation of a schema. -/
theorem Schema.relation?_eq_some_iff {s : Schema} {type name : String}
    {r : Relation} :
    s.relation? type name = some r ↔
      ∃ entity, s.entity? type = some entity ∧
        entity.relation? name = some r := by
  rw [Schema.relation?, Option.bind_eq_some_iff]

/-- A relation that is found has the name that was looked for. -/
theorem Schema.name_of_relation? {s : Schema} {type name : String}
    {r : Relation} (h : s.relation? type name = some r) : r.name = name := by
  obtain ⟨entity, -, hr⟩ := relation?_eq_some_iff.mp h
  simpa using List.find?_some hr

namespace PermissionRule

/-- The operands of a rule, without the spare one of a negation. -/
def parts : PermissionRule → List PermissionRule
  | binary _ left right => [left, right]
  | incomplete _ left => [left]
  | not operand => [operand]
  | notWith operand _ => [operand]
  | relation _ | member .. | inline _ | call .. => []

/-- The bare names in a rule, in its order. The operand of a connective
that lacks its other one is never evaluated. -/
def names : PermissionRule → List String
  | relation name => [name]
  | binary _ left right => left.names ++ right.names
  | not operand => operand.names
  | notWith operand _ => operand.names
  | incomplete .. | member .. | inline _ | call .. => []

/-- The relations by which a rule goes on to parents, in its order. -/
def traversed : PermissionRule → List String
  | member name _ => [name]
  | binary _ left right => left.traversed ++ right.traversed
  | not operand => operand.traversed
  | notWith operand _ => operand.traversed
  | incomplete .. | relation _ | inline _ | call .. => []

end PermissionRule

/-- **Whether a permission of an entity type goes on to parents** by a
relation. -/
def Schema.traverses (s : Schema) (type relation : String) : Bool :=
  s.entities.any fun entity => entity.name == type &&
    entity.permissions.any fun p => p.rule.traversed.contains relation

/-- What the rule of a permission goes on by, its type does. -/
theorem Schema.traverses_of_permission? {s : Schema}
    {type name relation : String} {p : Permission}
    (hp : s.permission? type name = some p)
    (h : relation ∈ p.rule.traversed) : s.traverses type relation = true := by
  obtain ⟨entity, he, hp⟩ := Option.bind_eq_some_iff.mp hp
  have hname : entity.name = type := by simpa using List.find?_some he
  refine List.any_eq_true.mpr ⟨entity, List.mem_of_find?_eq_some he, ?_⟩
  rw [beq_iff_eq.mpr hname, Bool.true_and]
  exact List.any_eq_true.mpr
    ⟨p, List.mem_of_find?_eq_some hp, List.contains_iff_mem.mpr h⟩

/-- **Whether a rule on an entity type leads to another**, on the same type
or another, in any number of steps. -/
inductive Schema.Reaches (s : Schema) :
    String → PermissionRule → String → PermissionRule → Prop
  | self {type : String} {rule : PermissionRule} :
      s.Reaches type rule type rule
  | left {op : Connective} {left right rule : PermissionRule}
      {type type' : String} : s.Reaches type left type' rule →
      s.Reaches type (.binary op left right) type' rule
  | right {op : Connective} {left right rule : PermissionRule}
      {type type' : String} : s.Reaches type right type' rule →
      s.Reaches type (.binary op left right) type' rule
  | incomplete {op : Connective} {left rule : PermissionRule}
      {type type' : String} : s.Reaches type left type' rule →
      s.Reaches type (.incomplete op left) type' rule
  | not {operand rule : PermissionRule} {type type' : String} :
      s.Reaches type operand type' rule →
      s.Reaches type (.not operand) type' rule
  | notWith {operand spare rule : PermissionRule} {type type' : String} :
      s.Reaches type operand type' rule →
      s.Reaches type (.notWith operand spare) type' rule
  /-- The rule of a permission of the same type. -/
  | name {name : String} {p : Permission} {rule : PermissionRule}
      {type type' : String} : s.permission? type name = some p →
      s.Reaches type p.rule type' rule →
      s.Reaches type (.relation name) type' rule
  /-- The rule of a permission of a type that a relation leads to. -/
  | member {relation permission : String} {entity : EntityType}
      {r : Relation} {p : Permission} {rule : PermissionRule}
      {type target type' : String} : s.entity? type = some entity →
      entity.relation? relation = some r → target ∈ r.directTypes →
      s.permission? target permission = some p →
      s.Reaches target p.rule type' rule →
      s.Reaches type (.member relation permission) type' rule

/-- **What passes to parts passes to all that a rule leads to**, if it is
true of the rule of every permission. -/
theorem Schema.Reaches.passes {s : Schema}
    {P : String → PermissionRule → Prop}
    (hparts : ∀ type rule, P type rule → ∀ part ∈ rule.parts, P type part)
    (hdeclared : ∀ entity ∈ s.entities, ∀ p ∈ entity.permissions,
      P entity.name p.rule) {type type' : String}
    {rule rule' : PermissionRule} (h : s.Reaches type rule type' rule')
    (hrule : P type rule) : P type' rule' := by
  have hfound : ∀ {type name : String} {p : Permission},
      s.permission? type name = some p → P type p.rule := by
    intro type name p hp
    obtain ⟨entity, he, hp⟩ := Option.bind_eq_some_iff.mp hp
    have hname : entity.name = type := by simpa using List.find?_some he
    rw [← hname]
    exact hdeclared entity (List.mem_of_find?_eq_some he) p
      (List.mem_of_find?_eq_some hp)
  induction h with
  | self => exact hrule
  | left _ ih => exact ih (hparts _ _ hrule _ List.mem_cons_self)
  | right _ ih =>
    exact ih (hparts _ _ hrule _
      (List.mem_cons_of_mem _ (List.mem_singleton_self _)))
  | incomplete _ ih => exact ih (hparts _ _ hrule _ List.mem_cons_self)
  | not _ ih => exact ih (hparts _ _ hrule _ List.mem_cons_self)
  | notWith _ ih => exact ih (hparts _ _ hrule _ List.mem_cons_self)
  | name hp _ ih => exact ih (hfound hp)
  | member _ _ _ hp _ ih => exact ih (hfound hp)

end Entitlement
