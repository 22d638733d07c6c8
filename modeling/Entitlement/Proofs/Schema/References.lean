import Entitlement.Proofs.Outcome
import Entitlement.Proofs.Schema.Reach
import Entitlement.Schema.Compile

/-!
# References of a compiled schema

A permission rule refers to relations and permissions of its entity type,
to rules of the schema and to expressions. `Schema.Resolves` says that
there is something behind every reference: the names are declared, a call
passes as many arguments as its rule has parameters, and the expressions
compile.

A document without problems has a schema whose references resolve
(`Schema.resolves_of_problems`). In such a schema, what is asked of a
parent is declared on its type too (`Schema.findsMembers_of_problems`).
Validation looks at the document, so each
declaration is followed into the schema: the schema of a document has the
declared entity types in their order, and looking up a name finds what
was declared under it.
-/

namespace Entitlement

/-! ## Rules whose references resolve -/

/-- **Whether there is something behind every reference of a rule** on an
entity type. A connective without its right operand refers to nothing. -/
def PermissionRule.Resolves (check : ExpressionCheck) (s : Schema)
    (entity : EntityType) : PermissionRule → Prop
  | relation name =>
    (entity.permission? name).isSome ∨ (entity.relation? name).isSome
  | binary _ left right =>
    left.Resolves check s entity ∧ right.Resolves check s entity
  | incomplete _ _ => False
  | not operand => operand.Resolves check s entity
  | notWith operand _ => operand.Resolves check s entity
  | member r _ => (entity.relation? r).isSome
  | inline expression => check expression = none
  | call name arguments => ∃ rule, s.rule? name = some rule ∧
      rule.parameters.length = arguments.length ∧ check rule.body = none

/-- **Whether there is something behind every reference of a schema.** -/
def Schema.Resolves (check : ExpressionCheck) (s : Schema) : Prop :=
  ∀ entity ∈ s.entities, ∀ p ∈ entity.permissions,
    p.rule.Resolves check s entity

/-- The rule of a permission that is found resolves. -/
theorem Schema.Resolves.rule {check : ExpressionCheck} {s : Schema}
    (hs : s.Resolves check) {type name : String} {entity : EntityType}
    {p : Permission} (he : s.entity? type = some entity)
    (hp : entity.permission? name = some p) :
    p.rule.Resolves check s entity :=
  hs entity (List.mem_of_find?_eq_some he) p (List.mem_of_find?_eq_some hp)

/-! ## From a document to its schema -/

/-- A text compiles exactly if it is a document without problems that has
a schema. -/
theorem compileSchema_eq_ok_iff {check : ExpressionCheck}
    {tenant version source : String} {createdAt : Int} {s : Schema} :
    compileSchema check tenant version source createdAt = .ok s ↔
      ∃ d, parse source = .ok d ∧ d.problems check = [] ∧
        d.toSchema tenant version source createdAt = .ok s := by
  unfold compileSchema
  cases hparse : parse source with
  | error errors => simp
  | ok d =>
    cases hproblems : d.problems check with
    | nil => simp [hproblems]
    | cons problem rest => simp [hproblems]

namespace EntityDecl

variable {e : EntityDecl} {entity : EntityType}

/-- The entity type of a declaration has its name, and its relations and
permissions are those that are declared. -/
theorem toEntityType_eq_ok (h : e.toEntityType = .ok entity) :
    entity.name = e.name ∧
      entity.relations = e.relations.map RelationDecl.toRelation ∧
      entity.permissions = e.permissions.map PermissionDecl.toPermission := by
  obtain ⟨attributes, -, h⟩ := Outcome.bind_eq_ok_iff.mp h
  rw [Outcome.pure_eq_ok_iff] at h
  subst h
  exact ⟨rfl, rfl, rfl⟩

/-- Looking up a relation finds the one that is declared. -/
theorem relation?_toEntityType (h : e.toEntityType = .ok entity)
    (name : String) :
    entity.relation? name
      = (e.relation? name).map RelationDecl.toRelation := by
  unfold EntityType.relation? relation?
  rw [(toEntityType_eq_ok h).2.1, List.find?_map]
  rfl

/-- A permission is found exactly if one is declared. -/
theorem isSome_permission?_toEntityType (h : e.toEntityType = .ok entity)
    (name : String) :
    (entity.permission? name).isSome = e.hasPermission name := by
  unfold EntityType.permission? hasPermission
  rw [(toEntityType_eq_ok h).2.2, List.find?_map, Option.isSome_map,
    Bool.eq_iff_iff, List.find?_isSome, List.any_eq_true]
  rfl

end EntityDecl

namespace Document

variable {d : Document} {s : Schema} {tenant version source : String}
  {createdAt : Int}

/-- The entity types of a schema are those that are declared. -/
theorem exists_of_mem_entities
    (h : d.toSchema tenant version source createdAt = .ok s)
    {entity : EntityType} (he : entity ∈ s.entities) :
    ∃ e ∈ d.entities, e.toEntityType = .ok entity := by
  obtain ⟨entities, hm, h⟩ := Outcome.bind_eq_ok_iff.mp h
  rw [Outcome.pure_eq_ok_iff] at h
  subst h
  exact Outcome.exists_of_mapM hm entity he

/-- Looking up an entity type finds the one that is declared. -/
theorem exists_entity?_toSchema
    (h : d.toSchema tenant version source createdAt = .ok s) {name : String}
    {e : EntityDecl} (he : d.entity? name = some e) :
    ∃ entity, s.entity? name = some entity ∧ e.toEntityType = .ok entity := by
  obtain ⟨entities, hm, h⟩ := Outcome.bind_eq_ok_iff.mp h
  rw [Outcome.pure_eq_ok_iff] at h
  subst h
  refine Outcome.exists_find?_of_mapM (fun {e entity} hentity => ?_) hm he
  rw [(EntityDecl.toEntityType_eq_ok hentity).1]

/-- Looking up a rule finds the one that is declared. -/
theorem rule?_toSchema
    (h : d.toSchema tenant version source createdAt = .ok s)
    (name : String) : s.rule? name = (d.rule? name).map RuleDecl.toRule := by
  obtain ⟨entities, -, h⟩ := Outcome.bind_eq_ok_iff.mp h
  rw [Outcome.pure_eq_ok_iff] at h
  subst h
  unfold Schema.rule? rule?
  rw [List.find?_map]
  rfl

end Document

/-! ## What validation looks at -/

/-- The rules of a document without problems have bodies that compile. -/
theorem check_body_of_ruleProblems {check : ExpressionCheck}
    {seen : List String} {rules : List RuleDecl}
    (h : ruleProblems check seen rules = []) :
    ∀ r ∈ rules, check r.body = none := by
  induction rules generalizing seen with
  | nil => exact fun r hr => absurd hr List.not_mem_nil
  | cons first rest ih =>
    rw [ruleProblems, List.append_eq_nil_iff, List.append_eq_nil_iff] at h
    obtain ⟨⟨-, hfirst⟩, hrest⟩ := h
    intro r hr
    rcases List.mem_cons.mp hr with rfl | hr
    · rw [RuleDecl.problems, List.append_eq_nil_iff] at hfirst
      simpa using hfirst.2
    · exact ih hrest r hr

/-- **An expression without problems becomes a rule that resolves.** -/
theorem PermissionExpr.resolves_toRule {check : ExpressionCheck}
    {d : Document} {s : Schema} {tenant version source : String}
    {createdAt : Int} (hs : d.toSchema tenant version source createdAt = .ok s)
    (hrules : ∀ r ∈ d.rules, check r.body = none) {e : EntityDecl}
    {entity : EntityType} (he : e.toEntityType = .ok entity)
    {permission : String} {expr : PermissionExpr}
    (h : expr.problems check d e permission = []) :
    expr.toRule.Resolves check s entity := by
  induction expr with
  | name n =>
    have hdeclared : e.hasRelationOrPermission n = true := by
      by_cases hn : e.hasRelationOrPermission n = true
      · exact hn
      · rw [problems, if_neg hn] at h
        cases h
    rw [EntityDecl.hasRelationOrPermission, Bool.or_eq_true] at hdeclared
    rw [toRule, PermissionRule.Resolves,
      EntityDecl.isSome_permission?_toEntityType he,
      EntityDecl.relation?_toEntityType he, Option.isSome_map]
    exact hdeclared.symm
  | member relation target =>
    rw [toRule, PermissionRule.Resolves, EntityDecl.relation?_toEntityType he,
      Option.isSome_map]
    unfold problems at h
    split at h
    · cases h
    next r hr => rw [hr, Option.isSome_some]
  | call rule arguments =>
    unfold problems at h
    split at h
    · cases h
    next r hr =>
      rw [List.append_eq_nil_iff] at h
      refine ⟨r.toRule, ?_, ?_, hrules r (List.mem_of_find?_eq_some hr)⟩
      · rw [Document.rule?_toSchema hs, hr, Option.map_some]
      · by_cases hlen : r.parameters.length = arguments.length
        · exact hlen
        · rw [if_neg hlen] at h
          cases h.1
  | inline expression =>
    rw [toRule, PermissionRule.Resolves]
    simpa [problems] using h
  | not operand ih => exact ih h
  | binary op left right ihl ihr =>
    rw [problems, List.append_eq_nil_iff] at h
    exact ⟨ihl h.1, ihr h.2⟩

/-- **A document without problems has a schema whose references
resolve.** -/
theorem Schema.resolves_of_problems {check : ExpressionCheck} {d : Document}
    (hd : d.problems check = []) {s : Schema}
    {tenant version source : String} {createdAt : Int}
    (hs : d.toSchema tenant version source createdAt = .ok s) :
    s.Resolves check := by
  unfold Document.problems at hd
  simp only [List.append_eq_nil_iff] at hd
  obtain ⟨⟨⟨hrules, -⟩, hentities⟩, -⟩ := hd
  intro entity hmem p hp
  obtain ⟨e, he, hentity⟩ := Document.exists_of_mem_entities hs hmem
  have hproblems := List.flatMap_eq_nil_iff.mp hentities e he
  rw [EntityDecl.problems, List.append_eq_nil_iff] at hproblems
  rw [(EntityDecl.toEntityType_eq_ok hentity).2.2, List.mem_map] at hp
  obtain ⟨decl, hdecl, rfl⟩ := hp
  exact PermissionExpr.resolves_toRule hs (check_body_of_ruleProblems hrules)
    hentity (List.flatMap_eq_nil_iff.mp hproblems.2 decl hdecl)

/-- The references of a compiled schema resolve. -/
theorem Schema.resolves_of_compileSchema {check : ExpressionCheck}
    {tenant version source : String} {createdAt : Int} {s : Schema}
    (h : compileSchema check tenant version source createdAt = .ok s) :
    s.Resolves check := by
  obtain ⟨d, -, hd, hs⟩ := compileSchema_eq_ok_iff.mp h
  exact resolves_of_problems hd hs

/-! ## What parents are asked for -/

/-- **Whether the parents that a rule on an entity type goes on to have
what they are asked for**, by what their types declare. -/
def PermissionRule.FindsMembers (s : Schema) (entity : EntityType) :
    PermissionRule → Prop
  | member name permission => ∀ r, entity.relation? name = some r →
      ∀ target ∈ r.directTypes, (s.permission? target permission).isSome ∨
        (s.relation? target permission).isSome
  | binary _ left right =>
    left.FindsMembers s entity ∧ right.FindsMembers s entity
  | not operand => operand.FindsMembers s entity
  | notWith operand _ => operand.FindsMembers s entity
  | relation _ | incomplete .. | inline _ | call .. => True

/-- **Whether parents have what they are asked for** throughout a
schema. -/
def Schema.FindsMembers (s : Schema) : Prop :=
  ∀ entity ∈ s.entities, ∀ p ∈ entity.permissions,
    p.rule.FindsMembers s entity

/-- The rule of a permission that is found has its members. -/
theorem Schema.FindsMembers.rule {s : Schema} (hs : s.FindsMembers)
    {type name : String} {entity : EntityType} {p : Permission}
    (he : s.entity? type = some entity)
    (hp : entity.permission? name = some p) : p.rule.FindsMembers s entity :=
  hs entity (List.mem_of_find?_eq_some he) p (List.mem_of_find?_eq_some hp)

/-- The targets of a relation without problems are declared. -/
theorem EntityDecl.exists_entity?_of_targetProblems {d : Document}
    {e : EntityDecl} (h : e.targetProblems d = []) {r : RelationDecl}
    (hr : r ∈ e.relations) {t : TargetDecl} (ht : t ∈ r.targets) :
    ∃ target, d.entity? t.entity = some target := by
  have hnone := List.filterMap_eq_nil_iff.mp
    (List.flatMap_eq_nil_iff.mp h r hr) t ht
  unfold targetProblem? at hnone
  cases hd : d.entity? t.entity with
  | none =>
    rw [hd] at hnone
    cases hnone
  | some target => exact ⟨target, rfl⟩

/-- **An expression without problems becomes a rule that finds its
members.** -/
theorem PermissionExpr.findsMembers_toRule {check : ExpressionCheck}
    {d : Document} {s : Schema} {tenant version source : String}
    {createdAt : Int} (hs : d.toSchema tenant version source createdAt = .ok s)
    {e : EntityDecl} {entity : EntityType} (he : e.toEntityType = .ok entity)
    (htargets : e.targetProblems d = []) {permission : String}
    {expr : PermissionExpr} (h : expr.problems check d e permission = []) :
    expr.toRule.FindsMembers s entity := by
  induction expr with
  | member relation name =>
    intro r hr target htarget
    rw [EntityDecl.relation?_toEntityType he, Option.map_eq_some_iff] at hr
    obtain ⟨decl, hdecl, rfl⟩ := hr
    have hmem : decl ∈ e.relations := List.mem_of_find?_eq_some hdecl
    simp only [problems, hdecl] at h
    -- the declared target behind the type
    simp only [Relation.directTypes, RelationDecl.toRelation, List.mem_map,
      List.mem_filter] at htarget
    obtain ⟨_, ⟨⟨t, ht, rfl⟩, hdirect⟩, rfl⟩ := htarget
    obtain ⟨found, hfound⟩ :=
      EntityDecl.exists_entity?_of_targetProblems htargets hmem ht
    have hnone := List.filterMap_eq_nil_iff.mp h t
      (List.mem_filter.mpr ⟨ht, hdirect⟩)
    rw [hfound] at hnone
    have hdeclared : found.hasRelationOrPermission name = true := by
      by_cases hn : found.hasRelationOrPermission name = true
      · exact hn
      · simp [hn] at hnone
    obtain ⟨target, htarget, hconvert⟩ :=
      Document.exists_entity?_toSchema hs hfound
    rw [EntityDecl.hasRelationOrPermission, Bool.or_eq_true] at hdeclared
    show (s.permission? t.entity name).isSome ∨
      (s.relation? t.entity name).isSome
    unfold Schema.permission? Schema.relation?
    rw [htarget, Option.bind_some, Option.bind_some,
      EntityDecl.isSome_permission?_toEntityType hconvert,
      EntityDecl.relation?_toEntityType hconvert, Option.isSome_map]
    exact hdeclared.symm
  | not operand ih => exact ih h
  | binary op left right ihl ihr =>
    rw [problems, List.append_eq_nil_iff] at h
    exact ⟨ihl h.1, ihr h.2⟩
  | name _ | call _ _ | inline _ => trivial

/-- **A document without problems has a schema in which parents have what
they are asked for.** -/
theorem Schema.findsMembers_of_problems {check : ExpressionCheck}
    {d : Document} (hd : d.problems check = []) {s : Schema}
    {tenant version source : String} {createdAt : Int}
    (hs : d.toSchema tenant version source createdAt = .ok s) :
    s.FindsMembers := by
  unfold Document.problems at hd
  simp only [List.append_eq_nil_iff] at hd
  obtain ⟨⟨-, hentities⟩, -⟩ := hd
  intro entity hmem p hp
  obtain ⟨e, he, hentity⟩ := Document.exists_of_mem_entities hs hmem
  have hproblems := List.flatMap_eq_nil_iff.mp hentities e he
  simp only [EntityDecl.problems, List.append_eq_nil_iff] at hproblems
  obtain ⟨⟨-, htargets⟩, hpermissions⟩ := hproblems
  rw [(EntityDecl.toEntityType_eq_ok hentity).2.2, List.mem_map] at hp
  obtain ⟨decl, hdecl, rfl⟩ := hp
  exact PermissionExpr.findsMembers_toRule hs hentity htargets
    (List.flatMap_eq_nil_iff.mp hpermissions decl hdecl)

theorem Schema.findsMembers_of_compileSchema {check : ExpressionCheck}
    {tenant version source : String} {createdAt : Int} {s : Schema}
    (h : compileSchema check tenant version source createdAt = .ok s) :
    s.FindsMembers := by
  obtain ⟨d, -, hd, hs⟩ := compileSchema_eq_ok_iff.mp h
  exact findsMembers_of_problems hd hs

end Entitlement
