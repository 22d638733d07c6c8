import Entitlement.Proofs.Distinct
import Entitlement.Proofs.Schema.Cyclic
import Entitlement.Proofs.Schema.Validity
import Mathlib.Tactic.FinCases

/-!
# Validation finds what keeps a document from being valid

Validation lists problems pass by pass, each over the declarations in their
order. A document has no problem exactly if it is valid
(`Document.problems_eq_nil_iff`).

The passes share what they know. Looking up a name finds the first that was
declared under it, which is the only one once no name is repeated; so each
pass that looks up is read together with the distinctness of the names it
looks among. A traversal passes over the target types that do not exist, since
these are problems of the relation itself.
-/

namespace Entitlement

variable {check : ExpressionCheck}

/-! ## Repeated names -/

/-- No name is repeated exactly if the names are distinct and new. -/
theorem repeatedNames_eq_nil_iff {seen names : List String} :
    repeatedNames seen names = [] ↔
      names.Nodup ∧ ∀ name ∈ names, name ∉ seen := by
  induction names generalizing seen with
  | nil => simp [repeatedNames]
  | cons first rest ih =>
    unfold repeatedNames
    split
    next hseen =>
      rw [List.contains_iff_mem] at hseen
      refine iff_of_false (List.cons_ne_nil _ _) fun h => ?_
      exact h.2 first List.mem_cons_self hseen
    next hseen =>
      rw [List.contains_iff_mem] at hseen
      rw [ih, List.nodup_cons, List.forall_mem_cons]
      constructor
      · rintro ⟨hnodup, hnew⟩
        refine ⟨⟨fun hmem => ?_, hnodup⟩, hseen, fun name hname hs => ?_⟩
        · exact hnew first hmem List.mem_cons_self
        · exact hnew name hname (List.mem_cons_of_mem first hs)
      · rintro ⟨⟨hfirst, hnodup⟩, -, hnew⟩
        refine ⟨hnodup, fun name hname hs => ?_⟩
        rcases List.mem_cons.mp hs with rfl | hs
        · exact hfirst hname
        · exact hnew name hname hs

/-- No member is repeated exactly if their names are distinct and new. -/
theorem repeatedMembers_eq_nil_iff {seen members : List (String × MemberKind)} :
    repeatedMembers seen members = [] ↔ (members.map Prod.fst).Nodup ∧
      ∀ m ∈ members, seen.lookup m.1 = none := by
  induction members generalizing seen with
  | nil => simp [repeatedMembers]
  | cons first rest ih =>
    obtain ⟨name, kind⟩ := first
    unfold repeatedMembers
    split
    next before hseen =>
      refine iff_of_false (List.cons_ne_nil _ _) fun h => ?_
      have hnone := h.2 (name, kind) List.mem_cons_self
      rw [hseen] at hnone
      cases hnone
    next hseen =>
      have hlookup : ∀ other : String,
          List.lookup other ((name, kind) :: seen) = none ↔
            other ≠ name ∧ seen.lookup other = none := by
        intro other
        rw [List.lookup_cons]
        by_cases heq : other = name
        · simp [heq]
        · rw [beq_eq_false_iff_ne.mpr heq]
          exact (and_iff_right heq).symm
      rw [ih, List.map_cons, List.nodup_cons, List.forall_mem_cons]
      simp only [hlookup]
      constructor
      · rintro ⟨hnodup, hnew⟩
        refine ⟨⟨fun hmem => ?_, hnodup⟩, hseen, fun m hm => (hnew m hm).2⟩
        obtain ⟨m, hm, heq⟩ := List.mem_map.mp hmem
        exact (hnew m hm).1 heq
      · rintro ⟨⟨hfirst, hnodup⟩, -, hnew⟩
        refine ⟨hnodup, fun m hm => ⟨?_, hnew m hm⟩⟩
        rintro rfl
        exact hfirst (List.mem_map_of_mem hm)

/-! ## Rules -/

/-- A rule has no problem exactly if its parameters are distinct and its body
compiles. -/
theorem RuleDecl.problems_eq_nil_iff {r : RuleDecl} :
    r.problems check = [] ↔ r.parameters.Nodup ∧ check r.body = none := by
  unfold problems
  rw [List.append_eq_nil_iff, List.map_eq_nil_iff, repeatedNames_eq_nil_iff]
  simp

/-- Rules have no problem exactly if each has none and no name is repeated. -/
theorem ruleProblems_eq_nil_iff {seen : List String} {rules : List RuleDecl} :
    ruleProblems check seen rules = [] ↔
      repeatedNames seen (rules.map RuleDecl.name) = [] ∧
        ∀ r ∈ rules, r.problems check = [] := by
  induction rules generalizing seen with
  | nil => simp [ruleProblems, repeatedNames]
  | cons first rest ih =>
    rw [ruleProblems, List.map_cons, repeatedNames, List.append_eq_nil_iff,
      List.append_eq_nil_iff, ih, List.forall_mem_cons]
    split
    next => simp
    next => simp [and_left_comm]

/-! ## Entity types -/

/-- The types that an attribute can have are those that are spelled so. -/
theorem isSome_ofSpelling?_iff {name : String} :
    (ScalarType.ofSpelling? name).isSome ↔ name ∈ attributeTypeNames := by
  unfold ScalarType.ofSpelling? attributeTypeNames
  split <;> simp_all

namespace EntityDecl

variable {d : Document} {e : EntityDecl}

theorem hasPermission_iff {name : String} :
    e.hasPermission name = true ↔ ∃ p ∈ e.permissions, p.name = name := by
  simp [hasPermission]

theorem hasAttribute_iff {name : String} :
    e.hasAttribute name = true ↔ ∃ a ∈ e.attributes, a.name = name := by
  simp [hasAttribute]

theorem hasRelationOrPermission_iff {name : String} :
    e.hasRelationOrPermission name = true ↔ e.Offers name := by
  unfold hasRelationOrPermission Offers
  rw [Bool.or_eq_true, hasPermission_iff, relation?, List.find?_isSome]
  simp

theorem nameProblems_eq_nil_iff : e.nameProblems = [] ↔ e.memberNames.Nodup := by
  unfold nameProblems memberNames
  rw [List.map_eq_nil_iff, repeatedMembers_eq_nil_iff]
  simp [declaredNames, Function.comp_def]

theorem attributeProblems_eq_nil_iff : e.attributeProblems = [] ↔
    ∀ a ∈ e.attributes, a.typeName ∈ attributeTypeNames := by
  unfold attributeProblems
  rw [List.filterMap_eq_nil_iff]
  refine forall₂_congr fun a _ => ?_
  rw [← isSome_ofSpelling?_iff]
  cases ScalarType.ofSpelling? a.typeName <;> simp

/-- A target has no problem exactly if it exists. -/
theorem targetProblem?_eq_none_iff
    (hnames : (d.entities.map EntityDecl.name).Nodup) {relation : String}
    {t : TargetDecl} : e.targetProblem? d relation t = none ↔
      ∃ target ∈ d.entities, target.name = t.entity ∧
        ∀ name, t.relation = some name → target.Offers name := by
  unfold targetProblem?
  split
  next hnone => exact iff_of_false nofun (not_exists_of_find? hnone _)
  next target hsome =>
    rw [exists_iff_of_find? hnames hsome]
    cases t.relation with
    | none => simp
    | some r => simp [← hasRelationOrPermission_iff]

theorem targetProblems_eq_nil_iff
    (hnames : (d.entities.map EntityDecl.name).Nodup) :
    e.targetProblems d = [] ↔
      ∀ r ∈ e.relations, ∀ t ∈ r.targets, ∃ target ∈ d.entities,
        target.name = t.entity ∧ ∀ name, t.relation = some name →
          target.Offers name := by
  unfold targetProblems
  rw [List.flatMap_eq_nil_iff]
  refine forall₂_congr fun r _ => ?_
  rw [List.filterMap_eq_nil_iff]
  exact forall₂_congr fun t _ => targetProblem?_eq_none_iff hnames

end EntityDecl

/-! ## References -/

namespace PermissionExpr

variable {d : Document} {e : EntityDecl} {permission : String}

/-- A traversal has no problem exactly if its relation is declared and its
targets offer what is asked of them. -/
theorem problems_member_eq_nil_iff
    (hentities : (d.entities.map EntityDecl.name).Nodup)
    (hrelations : (e.relations.map RelationDecl.name).Nodup)
    (htargets : e.targetProblems d = []) {relation name : String} :
    (member relation name).problems check d e permission = [] ↔
      (member relation name).IsDeclared check d e := by
  unfold problems IsDeclared
  split
  next hnone =>
    exact iff_of_false (List.cons_ne_nil _ _) (not_exists_of_find? hnone _)
  next r hsome =>
    rw [exists_iff_of_find? hrelations hsome, List.filterMap_eq_nil_iff]
    simp only [List.mem_filter, Option.isNone_iff_eq_none, and_imp]
    refine forall₂_congr fun t ht => imp_congr_right fun _ => ?_
    -- the target exists, since the relation has no problem
    obtain ⟨target, htarget⟩ := EntityDecl.exists_entity?_of_targetProblems
      htargets (List.mem_of_find?_eq_some hsome) ht
    rw [Document.Offers, exists_iff_of_find? hentities htarget, htarget]
    simp [← EntityDecl.hasRelationOrPermission_iff]

/-- A call has no problem exactly if it calls a declared rule with as many
arguments as it has parameters, each of them known. -/
theorem problems_call_eq_nil_iff (hrules : (d.rules.map RuleDecl.name).Nodup)
    {rule : String} {arguments : List String} :
    (call rule arguments).problems check d e permission = [] ↔
      (call rule arguments).IsDeclared check d e := by
  unfold problems IsDeclared
  split
  next hnone =>
    exact iff_of_false (List.cons_ne_nil _ _) (not_exists_of_find? hnone _)
  next r hsome =>
    rw [exists_iff_of_find? hrules hsome, List.append_eq_nil_iff]
    simp [or_iff_not_imp_left, ← EntityDecl.hasAttribute_iff]

/-- **An expression has no problem exactly if all that it refers to is
declared.** -/
theorem problems_eq_nil_iff
    (hentities : (d.entities.map EntityDecl.name).Nodup)
    (hrules : (d.rules.map RuleDecl.name).Nodup)
    (hrelations : (e.relations.map RelationDecl.name).Nodup)
    (htargets : e.targetProblems d = []) {expr : PermissionExpr} :
    expr.problems check d e permission = [] ↔ expr.IsDeclared check d e := by
  induction expr with
  | name n =>
    unfold problems IsDeclared
    rw [← EntityDecl.hasRelationOrPermission_iff]
    split <;> simp_all
  | member relation n =>
    exact problems_member_eq_nil_iff hentities hrelations htargets
  | call rule arguments => exact problems_call_eq_nil_iff hrules
  | inline expression =>
    unfold problems IsDeclared
    simp
  | not operand ih => exact ih
  | binary op left right ihl ihr =>
    unfold problems IsDeclared
    rw [List.append_eq_nil_iff, ihl, ihr]

/-- The references of an expression are its bare names that name
permissions. -/
theorem mem_references_iff {expr : PermissionExpr} {next : String} :
    next ∈ expr.references e ↔
      next ∈ expr.names ∧ ∃ q ∈ e.permissions, q.name = next := by
  rw [← EntityDecl.hasPermission_iff]
  induction expr with
  | name n =>
    unfold references names
    split <;> simp_all
  | not operand ih => exact ih
  | binary op left right ihl ihr =>
    unfold references names
    rw [List.mem_append, List.mem_append, ihl, ihr, or_and_right]
  | member _ _ | call _ _ | inline _ => simp [references, names]

end PermissionExpr

/-! ## Cycles -/

/-- Where permissions have distinct names, they refer to their successors. -/
theorem EntityDecl.mem_successors_iff {e : EntityDecl}
    (hpermissions : (e.permissions.map PermissionDecl.name).Nodup)
    {name next : String} : next ∈ e.successors name ↔ e.Refers name next := by
  unfold successors Refers
  split
  next p hsome =>
    rw [exists_iff_of_find? hpermissions hsome,
      PermissionExpr.mem_references_iff]
  next hnone =>
    exact iff_of_false List.not_mem_nil (not_exists_of_find? hnone _)

/-- **No cycle is reported exactly if no permission leads back to itself.** -/
theorem EntityDecl.cycleProblem?_eq_none_iff {e : EntityDecl}
    (hpermissions : (e.permissions.map PermissionDecl.name).Nodup) :
    e.cycleProblem? = none ↔
      ∀ name, ¬ Relation.TransGen e.Refers name name := by
  have hrefers : (fun node next => next ∈ e.successors node) = e.Refers := by
    funext name next
    exact propext (mem_successors_iff hpermissions)
  rw [cycleProblem?, Option.map_eq_none_iff, cycle?_eq_none_iff, hrefers]

/-! ## Documents -/

/-- **An entity type has no problem and no cycle exactly if it is valid**,
among rules and entity types with distinct names. -/
theorem EntityDecl.problems_eq_nil_iff {d : Document} {e : EntityDecl}
    (hentities : (d.entities.map EntityDecl.name).Nodup)
    (hrules : (d.rules.map RuleDecl.name).Nodup) :
    e.problems check d = [] ∧ e.cycleProblem? = none ↔ e.IsValid check d := by
  unfold problems
  rw [List.append_eq_nil_iff, List.append_eq_nil_iff, List.append_eq_nil_iff,
    nameProblems_eq_nil_iff, attributeProblems_eq_nil_iff,
    List.flatMap_eq_nil_iff]
  -- the names of relations and of permissions are among those of members
  have hparts : e.memberNames.Nodup →
      (e.relations.map RelationDecl.name).Nodup ∧
        (e.permissions.map PermissionDecl.name).Nodup := by
    intro h
    obtain ⟨h, hpermissions, -⟩ := List.nodup_append.mp h
    exact ⟨(List.nodup_append.mp h).1, hpermissions⟩
  constructor
  · rintro ⟨⟨⟨⟨hmembers, htypes⟩, htargets⟩, hreferences⟩, hcycle⟩
    obtain ⟨hrelations, hpermissions⟩ := hparts hmembers
    exact {
      memberNames := hmembers
      attributeTypes := htypes
      targets := (targetProblems_eq_nil_iff hentities).mp htargets
      references := fun p hp => (PermissionExpr.problems_eq_nil_iff hentities
        hrules hrelations htargets).mp (hreferences p hp)
      acyclic := (cycleProblem?_eq_none_iff hpermissions).mp hcycle }
  · intro h
    obtain ⟨hrelations, hpermissions⟩ := hparts h.memberNames
    have htargets := (targetProblems_eq_nil_iff hentities).mpr h.targets
    refine ⟨⟨⟨⟨h.memberNames, h.attributeTypes⟩, htargets⟩, fun p hp => ?_⟩,
      (cycleProblem?_eq_none_iff hpermissions).mpr h.acyclic⟩
    exact (PermissionExpr.problems_eq_nil_iff hentities hrules hrelations
      htargets).mpr (h.references p hp)

namespace Document

/-- **A document has no problem exactly if it is valid.** -/
theorem problems_eq_nil_iff {d : Document} :
    d.problems check = [] ↔ d.IsValid check := by
  unfold problems
  rw [List.append_eq_nil_iff, List.append_eq_nil_iff, List.append_eq_nil_iff,
    ruleProblems_eq_nil_iff, List.map_eq_nil_iff, repeatedNames_eq_nil_iff,
    repeatedNames_eq_nil_iff, List.flatMap_eq_nil_iff,
    List.filterMap_eq_nil_iff]
  constructor
  · rintro ⟨⟨⟨⟨⟨hrules, -⟩, hproblems⟩, hentities, -⟩, hmembers⟩, hcycles⟩
    exact {
      ruleNames := hrules
      parameters := fun r hr =>
        (RuleDecl.problems_eq_nil_iff.mp (hproblems r hr)).1
      bodies := fun r hr =>
        (RuleDecl.problems_eq_nil_iff.mp (hproblems r hr)).2
      entityNames := hentities
      entities := fun e he => (EntityDecl.problems_eq_nil_iff hentities
        hrules).mp ⟨hmembers e he, hcycles e he⟩ }
  · intro h
    have hproblems := fun e he => (EntityDecl.problems_eq_nil_iff
      h.entityNames h.ruleNames).mpr (h.entities e he)
    refine ⟨⟨⟨⟨⟨h.ruleNames, fun _ _ => List.not_mem_nil⟩, fun r hr => ?_⟩,
      h.entityNames, fun _ _ => List.not_mem_nil⟩,
      fun e he => (hproblems e he).1⟩, fun e he => (hproblems e he).2⟩
    exact RuleDecl.problems_eq_nil_iff.mpr ⟨h.parameters r hr, h.bodies r hr⟩

/-- **Validation accepts exactly the valid documents**, whatever is taken for
an expression, and in whatever order they declare what they do. -/
theorem validation_accepts_exactly_the_valid (check : ExpressionCheck)
    (d : Document) :
    (d.problems check = [] ↔ d.IsValid check) ∧
      ∀ d' : Document, d.Rearranges d' →
        (d'.problems check = [] ↔ d.problems check = []) := by
  refine ⟨problems_eq_nil_iff, fun d' h => ?_⟩
  rw [problems_eq_nil_iff, problems_eq_nil_iff, h.isValid_iff]

/-- Documents are viewed by way of their folders, and by whoever edits
them. -/
def folderEntity : EntityDecl where
  name := "folder"
  relations := [⟨"parent", [⟨"folder", none⟩]⟩,
    ⟨"owner", [⟨"user", none⟩, ⟨"team", some "member"⟩]⟩]
  attributes := [⟨"tags", "string", true⟩]
  permissions := [⟨"view", .binary .or (.name "edit") (.member "parent" "view")⟩,
    ⟨"edit", .binary .and (.name "owner") (.call "tagged" ["tags", "request"])⟩]

/-- The members of a team. -/
def teamEntity : EntityDecl where
  name := "team"
  relations := [⟨"member", [⟨"user", none⟩]⟩]

/-- The rule that folders call. -/
def taggedRule : RuleDecl :=
  ⟨"tagged", ["tags", "request"], "request.tag in tags"⟩

/-- Folders before what they refer to. -/
def foldersFirst : Document where
  rules := [taggedRule]
  entities := [folderEntity, teamEntity, { name := "user" }]

/-- Folders last, and their members the other way round. -/
def foldersLast : Document where
  rules := [taggedRule]
  entities := [{ name := "user" }, teamEntity,
    { folderEntity with
      relations := folderEntity.relations.reverse
      permissions := folderEntity.permissions.reverse }]

theorem foldersFirst_rearranges : foldersFirst.Rearranges foldersLast where
  rules := .refl _
  entities := by
    refine ⟨foldersFirst.entities.zip foldersLast.entities.reverse,
      by decide, by decide, fun pair hpair => ?_⟩
    fin_cases hpair <;> constructor <;> decide

/-- The folders are valid in either order. Permissions that refer to each
other are not. -/
theorem foldersLast_isValid :
    foldersLast.problems (fun _ => none) = [] ∧
      foldersLast.IsValid (fun _ => none) ∧
      ¬ Document.IsValid (fun _ => none) { entities := [{
          name := "folder"
          permissions := [⟨"view", .name "edit"⟩,
            ⟨"edit", .not (.name "view")⟩] }] } := by
  have hlast : foldersLast.problems (fun _ => none) = [] :=
    ((validation_accepts_exactly_the_valid (fun _ => none) foldersFirst).2
      foldersLast foldersFirst_rearranges).mpr (by decide)
  refine ⟨hlast, (validation_accepts_exactly_the_valid _ _).1.mp hlast, ?_⟩
  rw [← (validation_accepts_exactly_the_valid _ _).1]
  decide

end Document

end Entitlement
