import Entitlement.Proofs.Schema.Reach
import Entitlement.Proofs.Schema.References
import Mathlib.Data.List.Perm.Subperm
import Mathlib.Logic.Relation

/-!
# No permission refers to itself

In a schema that compiles, the bare names by which the permissions of an
entity type refer to each other form no cycle (`Schema.IsAcyclic`).

Validation searches for cycles depth first. The search enters no
permission again that was entered before, so a permission that it passes
over may have been left by the search or may still lie on its path. What
carries the proof is that everything that was entered and is not on the
path is *grounded* (`IsSettled`): the references from it come to an end.
A permission all of whose references are grounded is grounded as well, so
it may leave the path. The search never runs out of depth, because its path
repeats no permission.
-/

namespace Entitlement

/-! ## The search -/

/-- **Whether every way along successors from a node comes to an end.** -/
def IsGrounded (successors : String → List String) (node : String) : Prop :=
  Acc (fun next node => next ∈ successors node) node

/-- A grounded node lies on no cycle. -/
theorem IsGrounded.not_transGen {successors : String → List String}
    {node : String} (h : IsGrounded successors node) :
    ¬ Relation.TransGen (fun node next => next ∈ successors node)
      node node := by
  have hacc := Acc.transGen h
  clear h
  induction hacc with
  | intro node _ ih =>
    intro hcycle
    exact ih node (Relation.transGen_swap.mpr hcycle) hcycle

/-- **Whether what was entered is grounded**, unless it is on the path. -/
def IsSettled (successors : String → List String)
    (path visited : List String) : Prop :=
  ∀ node ∈ visited, node ∉ path → IsGrounded successors node

namespace IsSettled

variable {successors : String → List String} {path visited : List String}
  {node : String}

/-- A node that is entered is on the path. -/
theorem enter (h : IsSettled successors path visited) (node : String) :
    IsSettled successors (node :: path) (node :: visited) := by
  intro other hother hout
  rcases List.mem_cons.mp hother with rfl | hother
  · exact absurd List.mem_cons_self hout
  · exact h other hother fun hp => hout (List.mem_cons_of_mem node hp)

/-- A grounded node may leave the path. -/
theorem leave (h : IsSettled successors (node :: path) visited)
    (hnode : IsGrounded successors node) :
    IsSettled successors path visited := by
  intro other hother hout
  by_cases heq : other = node
  · rw [heq]
    exact hnode
  · exact h other hother fun hp => (List.mem_cons.mp hp).elim heq hout

end IsSettled

/-- **A search that finds no cycle grounds its node**, if there is depth
enough for a path through all names. -/
theorem isGrounded_of_searchCycle {successors : String → List String}
    {names : List String}
    (hnames : ∀ node, ∀ next ∈ successors node, next ∈ names)
    {depth : Nat} {path visited visited' : List String} {node : String}
    (hdepth : names.length < depth + path.length) (hnodup : path.Nodup)
    (hpath : path ⊆ names) (hnode : node ∈ names)
    (hsettled : IsSettled successors path visited)
    (h : searchCycle successors depth path visited node = .ok visited') :
    IsSettled successors path visited' ∧ IsGrounded successors node := by
  induction depth generalizing path visited visited' node with
  | zero =>
    have hle := (hnodup.subperm hpath).length_le
    omega
  | succ depth ih =>
    unfold searchCycle at h
    split at h
    next => cases h
    next hout =>
      rw [List.contains_iff_mem] at hout
      split at h
      next hin =>
        cases h
        exact ⟨hsettled, hsettled node (List.contains_iff_mem.mp hin) hout⟩
      next =>
        -- the fold grounds all successors, with the node on their paths
        obtain ⟨hleft, hnexts⟩ := Outcome.forall_of_foldlM
          (I := IsSettled successors (node :: path))
          (P := IsGrounded successors)
          (fun next hnext _ _ hv hsearch =>
            ih (by rw [List.length_cons]; omega)
              (List.nodup_cons.mpr ⟨hout, hnodup⟩)
              (List.cons_subset.mpr ⟨hnode, hpath⟩)
              (hnames node next hnext) hv hsearch)
          h (hsettled.enter node)
        have hgrounded : IsGrounded successors node := .intro node hnexts
        exact ⟨hleft.leave hgrounded, hgrounded⟩

/-! ## Entity types -/

/-- References are permissions of the entity type. -/
theorem PermissionExpr.hasPermission_of_mem_references {e : EntityDecl}
    {expr : PermissionExpr} {name : String}
    (h : name ∈ expr.references e) : e.hasPermission name = true := by
  induction expr with
  | name n =>
    unfold references at h
    split at h
    next hn => rwa [List.mem_singleton.mp h]
    next => exact absurd h List.not_mem_nil
  | not operand ih => exact ih h
  | binary op left right ihl ihr =>
    rcases List.mem_append.mp h with h | h
    · exact ihl h
    · exact ihr h
  | member _ _ | call _ _ | inline _ => exact absurd h List.not_mem_nil

/-- A name in the rule of an expression is a reference if it names a
permission. -/
theorem PermissionExpr.mem_references_of_names {e : EntityDecl}
    {expr : PermissionExpr} {name : String} (h : name ∈ expr.toRule.names)
    (hp : e.hasPermission name = true) : name ∈ expr.references e := by
  induction expr with
  | name n =>
    cases List.mem_singleton.mp h
    rw [references, if_pos hp]
    exact h
  | not operand ih => exact ih h
  | binary op left right ihl ihr =>
    rcases List.mem_append.mp h with h | h
    · exact List.mem_append_left _ (ihl h)
    · exact List.mem_append_right _ (ihr h)
  | member _ _ | call _ _ | inline _ => exact absurd h List.not_mem_nil

/-- **Whether a permission of an entity type refers to another one** of the
same type by its bare name. -/
def EntityType.Refers (entity : EntityType) (name next : String) : Prop :=
  ∃ p, entity.permission? name = some p ∧ next ∈ p.rule.names ∧
    (entity.permission? next).isSome

namespace EntityDecl

variable {e : EntityDecl} {entity : EntityType}

/-- What a permission refers to is declared. -/
theorem mem_names_of_mem_successors {node next : String}
    (h : next ∈ e.successors node) :
    next ∈ e.permissions.map PermissionDecl.name := by
  unfold successors at h
  split at h
  next p _ =>
    have hdeclared := PermissionExpr.hasPermission_of_mem_references h
    simpa [hasPermission] using hdeclared
  next => exact absurd h List.not_mem_nil

/-- **Without a cycle every permission is grounded.** -/
theorem isGrounded_of_cycle? (h : e.cycle? = none) :
    ∀ p ∈ e.permissions, IsGrounded e.successors p.name := by
  unfold cycle? at h
  dsimp only at h
  split at h
  next => cases h
  next visited hsearch =>
    refine (Outcome.forall_of_foldlM (I := IsSettled e.successors [])
      (fun p hp _ _ hv hstep => ?_) hsearch ?_).2
    · refine isGrounded_of_searchCycle
        (fun _ _ => mem_names_of_mem_successors) ?_ List.nodup_nil
        (List.nil_subset _) (List.mem_map_of_mem hp) hv hstep
      simp
    · exact fun _ hnode => absurd hnode List.not_mem_nil

/-- In a compiled entity type permissions refer to what validation takes
for their successors. -/
theorem mem_successors_of_refers (he : e.toEntityType = .ok entity)
    {name next : String} (h : entity.Refers name next) :
    next ∈ e.successors name := by
  obtain ⟨p, hp, hnext, hdeclared⟩ := h
  rw [isSome_permission?_toEntityType he] at hdeclared
  unfold EntityType.permission? at hp
  rw [(toEntityType_eq_ok he).2.2, List.find?_map,
    Option.map_eq_some_iff] at hp
  obtain ⟨decl, hdecl, rfl⟩ := hp
  unfold successors
  rw [show (e.permissions.find? fun p => p.name == name) = some decl
    from hdecl]
  exact PermissionExpr.mem_references_of_names hnext hdeclared

/-- **Without a cycle no permission refers to itself.** -/
theorem not_transGen_refers (hcycle : e.cycle? = none)
    (he : e.toEntityType = .ok entity) (name : String) :
    ¬ Relation.TransGen entity.Refers name name := by
  intro h
  have hsuccessors : Relation.TransGen
      (fun node next => next ∈ e.successors node) name name :=
    Relation.TransGen.mono (fun _ _ => mem_successors_of_refers he) _ _ h
  -- it refers to something, so it is declared
  obtain ⟨next, ⟨p, hp, -⟩, -⟩ := Relation.TransGen.head'_iff.mp h
  have hdeclared := isSome_permission?_toEntityType he name
  rw [hp, Option.isSome_some, eq_comm, hasPermission, List.any_eq_true]
    at hdeclared
  obtain ⟨decl, hdecl, hname⟩ := hdeclared
  have hgrounded := isGrounded_of_cycle? hcycle decl hdecl
  rw [beq_iff_eq.mp hname] at hgrounded
  exact hgrounded.not_transGen hsuccessors

end EntityDecl

namespace Schema

/-- **Whether no permission refers to itself**, by bare names on one entity
type. -/
def IsAcyclic (s : Schema) : Prop :=
  ∀ entity ∈ s.entities, ∀ name, ¬ Relation.TransGen entity.Refers name name

/-- **A schema that compiles is acyclic.** -/
theorem isAcyclic_of_compileSchema {check : ExpressionCheck}
    {tenant version source : String} {createdAt : Int} {s : Schema}
    (h : compileSchema check tenant version source createdAt = .ok s) :
    s.IsAcyclic := by
  obtain ⟨d, -, hd, hs⟩ := compileSchema_eq_ok_iff.mp h
  unfold Document.problems at hd
  simp only [List.append_eq_nil_iff, List.filterMap_eq_nil_iff] at hd
  intro entity hmem
  obtain ⟨e, he, hentity⟩ := Document.exists_of_mem_entities hs hmem
  refine EntityDecl.not_transGen_refers ?_ hentity
  exact Option.map_eq_none_iff.mp (hd.2 e he)

end Schema

end Entitlement
