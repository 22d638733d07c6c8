import Entitlement.Schema.Validation
import Mathlib.Data.List.Perm.Basic
import Mathlib.Logic.Relation

/-!
# Valid documents

What it means for a document to be a schema, said without a search and
without an order: names are distinct, whatever is referred to is declared,
the expressions compile, and no permission leads back to itself
(`Document.IsValid`).

Every clause asks which declarations there are, never which of them comes
first. So a document stays valid when its rules, its entity types and their
relations, attributes and permissions are declared in another order
(`Document.Rearranges.isValid_iff`).
-/

namespace Entitlement

/-! ## What is declared -/

/-- **Whether an entity type declares a relation or a permission** of a
name. -/
def EntityDecl.Offers (e : EntityDecl) (name : String) : Prop :=
  (∃ r ∈ e.relations, r.name = name) ∨ ∃ p ∈ e.permissions, p.name = name

/-- The names that an entity type gives to its relations, attributes and
permissions. -/
def EntityDecl.memberNames (e : EntityDecl) : List String :=
  e.relations.map RelationDecl.name ++ e.attributes.map AttributeDecl.name ++
    e.permissions.map PermissionDecl.name

/-- **Whether a document declares an entity type** of a name that offers
something. -/
def Document.Offers (d : Document) (entity name : String) : Prop :=
  ∃ e ∈ d.entities, e.name = entity ∧ e.Offers name

/-! ## What is referred to -/

namespace PermissionExpr

/-- The bare names in an expression, from left to right. -/
def names : PermissionExpr → List String
  | name n => [n]
  | not operand => operand.names
  | binary _ left right => left.names ++ right.names
  | member .. | call .. | inline _ => []

/-- **Whether all that an expression of an entity type refers to is
declared**, and its inline expressions compile. -/
def IsDeclared (check : ExpressionCheck) (d : Document) (e : EntityDecl) :
    PermissionExpr → Prop
  | name n => e.Offers n
  | member relation n => ∃ r ∈ e.relations, r.name = relation ∧
      ∀ t ∈ r.targets, t.relation = none → d.Offers t.entity n
  | call rule arguments => ∃ r ∈ d.rules, r.name = rule ∧
      r.parameters.length = arguments.length ∧
      ∀ a ∈ arguments, a ∈ contextNames ∨ ∃ attr ∈ e.attributes, attr.name = a
  | inline expression => check expression = none
  | not operand => operand.IsDeclared check d e
  | binary _ left right =>
    left.IsDeclared check d e ∧ right.IsDeclared check d e

end PermissionExpr

/-- **Whether a permission of an entity type refers to another one** of it by
its bare name. -/
def EntityDecl.Refers (e : EntityDecl) (name next : String) : Prop :=
  ∃ p ∈ e.permissions, p.name = name ∧ next ∈ p.expr.names ∧
    ∃ q ∈ e.permissions, q.name = next

/-! ## Validity -/

/-- The names of the types that an attribute can have. -/
def attributeTypeNames : List String :=
  ["string", "int", "bool", "float"]

/-- **A valid entity type** of a document. -/
structure EntityDecl.IsValid (check : ExpressionCheck) (d : Document)
    (e : EntityDecl) : Prop where
  /-- No two members have one name, whatever they are. -/
  memberNames : e.memberNames.Nodup
  attributeTypes : ∀ a ∈ e.attributes, a.typeName ∈ attributeTypeNames
  /-- A target is an entity type, and as a userset one that offers the
  relation. -/
  targets : ∀ r ∈ e.relations, ∀ t ∈ r.targets, ∃ target ∈ d.entities,
    target.name = t.entity ∧ ∀ name, t.relation = some name →
      target.Offers name
  references : ∀ p ∈ e.permissions, p.expr.IsDeclared check d e
  acyclic : ∀ name, ¬ Relation.TransGen e.Refers name name

/-- **A valid document.** -/
structure Document.IsValid (check : ExpressionCheck) (d : Document) :
    Prop where
  ruleNames : (d.rules.map RuleDecl.name).Nodup
  parameters : ∀ r ∈ d.rules, r.parameters.Nodup
  bodies : ∀ r ∈ d.rules, check r.body = none
  entityNames : (d.entities.map EntityDecl.name).Nodup
  entities : ∀ e ∈ d.entities, e.IsValid check d

/-! ## Another order of declarations -/

/-- **Whether an entity type declares the same as another one**, its
relations, attributes and permissions each in any order. -/
structure EntityDecl.Rearranges (e e' : EntityDecl) : Prop where
  name : e.name = e'.name
  relations : e.relations.Perm e'.relations
  attributes : e.attributes.Perm e'.attributes
  permissions : e.permissions.Perm e'.permissions

/-- **Whether a document declares the same as another one**, in any order:
the entity types of both come in pairs of which one rearranges the other. -/
structure Document.Rearranges (d d' : Document) : Prop where
  rules : d.rules.Perm d'.rules
  entities : ∃ pairs : List (EntityDecl × EntityDecl),
    d.entities.Perm (pairs.map Prod.fst) ∧
    d'.entities.Perm (pairs.map Prod.snd) ∧
    ∀ pair ∈ pairs, pair.1.Rearranges pair.2

namespace EntityDecl.Rearranges

variable {e e' : EntityDecl}

theorem symm (h : e.Rearranges e') : e'.Rearranges e :=
  ⟨h.name.symm, h.relations.symm, h.attributes.symm, h.permissions.symm⟩

theorem offers (h : e.Rearranges e') {name : String} (ho : e.Offers name) :
    e'.Offers name := by
  rcases ho with ⟨r, hr, hname⟩ | ⟨p, hp, hname⟩
  · exact Or.inl ⟨r, h.relations.mem_iff.mp hr, hname⟩
  · exact Or.inr ⟨p, h.permissions.mem_iff.mp hp, hname⟩

theorem refers (h : e.Rearranges e') {name next : String}
    (hr : e.Refers name next) : e'.Refers name next := by
  obtain ⟨p, hp, hname, hnext, q, hq, hqname⟩ := hr
  exact ⟨p, h.permissions.mem_iff.mp hp, hname, hnext, q,
    h.permissions.mem_iff.mp hq, hqname⟩

theorem memberNames_perm (h : e.Rearranges e') :
    e.memberNames.Perm e'.memberNames :=
  ((h.relations.map _).append (h.attributes.map _)).append
    (h.permissions.map _)

end EntityDecl.Rearranges

namespace Document.Rearranges

variable {d d' : Document} {check : ExpressionCheck}

theorem symm (h : d.Rearranges d') : d'.Rearranges d := by
  obtain ⟨pairs, hfst, hsnd, hpairs⟩ := h.entities
  refine ⟨h.rules.symm, pairs.map Prod.swap, ?_, ?_, ?_⟩
  · simpa [List.map_map, Function.comp_def] using hsnd
  · simpa [List.map_map, Function.comp_def] using hfst
  · intro pair hpair
    obtain ⟨other, hother, rfl⟩ := List.mem_map.mp hpair
    exact (hpairs other hother).symm

/-- An entity type is there rearranged. -/
theorem exists_entity (h : d.Rearranges d') {e : EntityDecl}
    (he : e ∈ d.entities) : ∃ e' ∈ d'.entities, e.Rearranges e' := by
  obtain ⟨pairs, hfst, hsnd, hpairs⟩ := h.entities
  obtain ⟨pair, hmem, rfl⟩ := List.mem_map.mp (hfst.mem_iff.mp he)
  exact ⟨pair.2, hsnd.mem_iff.mpr (List.mem_map_of_mem hmem),
    hpairs pair hmem⟩

theorem entityNames_perm (h : d.Rearranges d') :
    (d.entities.map EntityDecl.name).Perm
      (d'.entities.map EntityDecl.name) := by
  obtain ⟨pairs, hfst, hsnd, hpairs⟩ := h.entities
  have hnames : (pairs.map Prod.fst).map EntityDecl.name
      = (pairs.map Prod.snd).map EntityDecl.name := by
    rw [List.map_map, List.map_map]
    exact List.map_congr_left fun pair hmem => (hpairs pair hmem).name
  calc (d.entities.map EntityDecl.name).Perm
        ((pairs.map Prod.fst).map EntityDecl.name) := hfst.map _
    _ = (pairs.map Prod.snd).map EntityDecl.name := hnames
    List.Perm _ (d'.entities.map EntityDecl.name) := (hsnd.map _).symm

theorem offers (h : d.Rearranges d') {entity name : String}
    (ho : d.Offers entity name) : d'.Offers entity name := by
  obtain ⟨e, he, hname, ho⟩ := ho
  obtain ⟨e', he', hr⟩ := h.exists_entity he
  exact ⟨e', he', hr.name.symm.trans hname, hr.offers ho⟩

/-- What an expression refers to stays declared. -/
theorem isDeclared (h : d.Rearranges d') {e e' : EntityDecl}
    (he : e.Rearranges e') {expr : PermissionExpr}
    (hd : expr.IsDeclared check d e) : expr.IsDeclared check d' e' := by
  induction expr with
  | name n => exact he.offers hd
  | member relation n =>
    obtain ⟨r, hr, hname, htargets⟩ := hd
    exact ⟨r, he.relations.mem_iff.mp hr, hname,
      fun t ht hplain => h.offers (htargets t ht hplain)⟩
  | call rule arguments =>
    obtain ⟨r, hr, hname, hlength, harguments⟩ := hd
    refine ⟨r, h.rules.mem_iff.mp hr, hname, hlength, fun a ha => ?_⟩
    refine (harguments a ha).imp id fun ⟨attr, hattr, heq⟩ => ?_
    exact ⟨attr, he.attributes.mem_iff.mp hattr, heq⟩
  | inline expression => exact hd
  | not operand ih => exact ih hd
  | binary op left right ihl ihr => exact ⟨ihl hd.1, ihr hd.2⟩

/-- So a valid entity type stays valid. -/
theorem isValid_entity (h : d.Rearranges d') {e e' : EntityDecl}
    (he : e.Rearranges e') (hv : e.IsValid check d) : e'.IsValid check d' where
  memberNames := he.memberNames_perm.nodup_iff.mp hv.memberNames
  attributeTypes a ha := hv.attributeTypes a (he.attributes.mem_iff.mpr ha)
  targets r hr t ht := by
    obtain ⟨target, hmem, hname, hoffers⟩ :=
      hv.targets r (he.relations.mem_iff.mpr hr) t ht
    obtain ⟨target', hmem', htarget⟩ := h.exists_entity hmem
    exact ⟨target', hmem', htarget.name.symm.trans hname,
      fun name hn => htarget.offers (hoffers name hn)⟩
  references p hp :=
    h.isDeclared he (hv.references p (he.permissions.mem_iff.mpr hp))
  acyclic name hcycle := hv.acyclic name
    (Relation.TransGen.mono (fun _ _ => he.symm.refers) _ _ hcycle)

theorem isValid (h : d.Rearranges d') (hv : d.IsValid check) :
    d'.IsValid check where
  ruleNames := (h.rules.map _).nodup_iff.mp hv.ruleNames
  parameters r hr := hv.parameters r (h.rules.mem_iff.mpr hr)
  bodies r hr := hv.bodies r (h.rules.mem_iff.mpr hr)
  entityNames := h.entityNames_perm.nodup_iff.mp hv.entityNames
  entities e' he' := by
    obtain ⟨e, he, hr⟩ := h.symm.exists_entity he'
    exact h.isValid_entity hr.symm (hv.entities e he)

/-- **Validity does not depend on the order of declarations.** -/
theorem isValid_iff (h : d.Rearranges d') :
    d.IsValid check ↔ d'.IsValid check :=
  ⟨h.isValid, h.symm.isValid⟩

end Document.Rearranges

end Entitlement
