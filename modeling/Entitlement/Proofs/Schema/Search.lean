import Entitlement.Proofs.Schema.Cyclic
import Entitlement.Proofs.Schema.Problems

/-!
# The search for cycles comes to an end

`searchCycle` is given a depth that it never passes. What it does within the
depth is a search that knows no bound: `Explores` describes the runs of that
search step by step. On a finite graph there is always such a run, and only
one (`exists_explores`, `Explores.unique`), since a path repeats no node and a
depth beyond the number of nodes is never used up (`explores_searchCycle`).

For the permissions of an entity type this makes the search exact: it comes
to an end, it reports something exactly if some permission leads back to
itself, and what it reports is a cycle among them. Of two permissions with
one name the first counts, in the search and in the graph
(`EntityDecl.LeadsTo`).
-/

namespace Entitlement

/-! ## Runs without a bound -/

/-- What a search comes to: a cycle, or all that was entered. -/
abbrev SearchOutcome := Except (List String) (List String)

/-- **A run of the search from some nodes in a row**, with the path that leads
to them, its end in front, and what was entered before. A cycle ends it. -/
inductive Explores (successors : String → List String) :
    List String → List String → List String → SearchOutcome → Prop
  | done {path visited : List String} :
      Explores successors path visited [] (.ok visited)
  /-- The node is on the path. -/
  | closes {path visited nodes : List String} {node : String} :
      node ∈ path → Explores successors path visited (node :: nodes)
        (.error (closeCycle path node))
  /-- The node was entered before and left again. -/
  | passes {path visited nodes : List String} {node : String}
      {outcome : SearchOutcome} :
      node ∉ path → node ∈ visited →
        Explores successors path visited nodes outcome →
          Explores successors path visited (node :: nodes) outcome
  /-- The node is entered, and a cycle is found behind it. -/
  | finds {path visited nodes cycle : List String} {node : String} :
      node ∉ path → node ∉ visited →
        Explores successors (node :: path) (node :: visited)
            (successors node) (.error cycle) →
          Explores successors path visited (node :: nodes) (.error cycle)
  /-- The node is entered and left again. -/
  | leaves {path visited visited' nodes : List String} {node : String}
      {outcome : SearchOutcome} :
      node ∉ path → node ∉ visited →
        Explores successors (node :: path) (node :: visited)
            (successors node) (.ok visited') →
          Explores successors path visited' nodes outcome →
            Explores successors path visited (node :: nodes) outcome

variable {successors : String → List String}

namespace Explores

variable {path visited visited' nodes : List String} {node : String}
  {outcome outcome' : SearchOutcome}

/-- **A search comes to one thing only.** -/
theorem unique (h : Explores successors path visited nodes outcome)
    (h' : Explores successors path visited nodes outcome') :
    outcome = outcome' := by
  induction h generalizing outcome' with
  | done =>
    cases h' with
    | done => rfl
  | closes hin =>
    cases h' with
    | closes => rfl
    | passes hout => exact absurd hin hout
    | finds hout => exact absurd hin hout
    | leaves hout => exact absurd hin hout
  | passes hout hvisited _ ih =>
    cases h' with
    | closes hin => exact absurd hin hout
    | passes _ _ hrest => exact ih hrest
    | finds _ hnew => exact absurd hvisited hnew
    | leaves _ hnew => exact absurd hvisited hnew
  | finds hout hnew _ ih =>
    cases h' with
    | closes hin => exact absurd hin hout
    | passes _ hvisited => exact absurd hvisited hnew
    | finds _ _ hbehind => exact ih hbehind
    | leaves _ _ hbehind => cases ih hbehind
  | leaves hout hnew _ _ ihbehind ihrest =>
    cases h' with
    | closes hin => exact absurd hin hout
    | passes _ hvisited => exact absurd hvisited hnew
    | finds _ _ hbehind => cases ihbehind hbehind
    | leaves _ _ hbehind hrest =>
      cases ihbehind hbehind
      exact ihrest hrest

/-- A cycle that is found at a node ends the search from others too. -/
theorem error_cons {cycle : List String}
    (h : Explores successors path visited [node] (.error cycle)) :
    Explores successors path visited (node :: nodes) (.error cycle) := by
  cases h with
  | closes hin => exact .closes hin
  | passes _ _ hrest => cases hrest
  | finds hout hnew hbehind => exact .finds hout hnew hbehind
  | leaves _ _ _ hrest => cases hrest

/-- A search that finds no cycle at a node goes on with the others. -/
theorem ok_cons (h : Explores successors path visited [node] (.ok visited'))
    (hrest : Explores successors path visited' nodes outcome) :
    Explores successors path visited (node :: nodes) outcome := by
  cases h with
  | passes hout hvisited hdone =>
    cases hdone
    exact .passes hout hvisited hrest
  | leaves hout hnew hbehind hdone =>
    cases hdone
    exact .leaves hout hnew hbehind hrest

/-- So a fold of searches is a run, if each search is. -/
theorem foldlM {search : List String → String → SearchOutcome}
    (h : ∀ node ∈ nodes, ∀ visited,
      Explores successors path visited [node] (search visited node))
    (visited : List String) :
    Explores successors path visited nodes (nodes.foldlM search visited) := by
  induction nodes generalizing visited with
  | nil => exact .done
  | cons node nodes ih =>
    have hnode := h node List.mem_cons_self visited
    have hnodes := ih fun next hnext =>
      h next (List.mem_cons_of_mem node hnext)
    rw [List.foldlM_cons]
    cases hsearch : search visited node with
    | error cycle =>
      rw [hsearch] at hnode
      exact hnode.error_cons
    | ok visited' =>
      rw [hsearch] at hnode
      exact hnode.ok_cons (hnodes visited')

end Explores

/-- **The search within a depth is a run without a bound**, if there is depth
enough for a path through all names. -/
theorem explores_searchCycle {names : List String}
    (hnames : ∀ node, ∀ next ∈ successors node, next ∈ names) {depth : Nat}
    {path : List String} (hdepth : names.length < depth + path.length)
    (hnodup : path.Nodup) (hpath : path ⊆ names) {node : String}
    (hnode : node ∈ names) (visited : List String) :
    Explores successors path visited [node]
      (searchCycle successors depth path visited node) := by
  induction depth generalizing path visited node with
  | zero =>
    have hle := (hnodup.subperm hpath).length_le
    omega
  | succ depth ih =>
    unfold searchCycle
    split
    next hin => exact .closes (List.contains_iff_mem.mp hin)
    next hout =>
      rw [List.contains_iff_mem] at hout
      split
      next hvisited =>
        exact .passes hout (List.contains_iff_mem.mp hvisited) .done
      next hnew =>
        rw [List.contains_iff_mem] at hnew
        have hbehind : Explores successors (node :: path) (node :: visited)
            (successors node) _ :=
          .foldlM (fun next hnext => ih (by rw [List.length_cons]; omega)
            (List.nodup_cons.mpr ⟨hout, hnodup⟩)
            (List.cons_subset.mpr ⟨hnode, hpath⟩) (hnames node next hnext))
            (node :: visited)
        cases hsearch : (successors node).foldlM
            (searchCycle successors depth (node :: path)) (node :: visited) with
        | error cycle =>
          rw [hsearch] at hbehind
          exact .finds hout hnew hbehind
        | ok visited' =>
          rw [hsearch] at hbehind
          exact .leaves hout hnew hbehind .done

/-- So is a search from several nodes in a row. -/
theorem explores_foldlM_searchCycle {names : List String}
    (hnames : ∀ node, ∀ next ∈ successors node, next ∈ names)
    {nodes : List String} (hnodes : nodes ⊆ names) (visited : List String) :
    Explores successors [] visited nodes
      (nodes.foldlM (searchCycle successors (names.length + 1) []) visited) :=
  Explores.foldlM
    (fun _ hnode => explores_searchCycle hnames (by simp) List.nodup_nil
      (List.nil_subset names) (hnodes hnode)) visited

/-! ## Finite graphs -/

/-- The successors of a node in a graph that is given by the lists of
successors of some nodes. -/
def graphSuccessors (graph : List (String × List String)) (node : String) :
    List String :=
  (graph.lookup node).getD []

/-- Successors stand in the graph. -/
theorem mem_of_mem_graphSuccessors {graph : List (String × List String)}
    {node next : String} (h : next ∈ graphSuccessors graph node) :
    next ∈ graph.flatMap Prod.snd := by
  unfold graphSuccessors at h
  cases hlookup : graph.lookup node with
  | none =>
    rw [hlookup] at h
    exact absurd h List.not_mem_nil
  | some nexts =>
    obtain ⟨before, after, rfl, -⟩ := List.lookup_eq_some_iff.mp hlookup
    rw [hlookup] at h
    exact List.mem_flatMap.mpr ⟨(node, nexts), by simp, h⟩

/-- **On every finite graph the search comes to an end.** -/
theorem exists_explores (graph : List (String × List String))
    (visited nodes : List String) :
    ∃ outcome,
      Explores (graphSuccessors graph) [] visited nodes outcome :=
  ⟨_, explores_foldlM_searchCycle
    (fun _ _ h => List.mem_append_right nodes (mem_of_mem_graphSuccessors h))
    (List.subset_append_left nodes _) visited⟩

/-! ## Permissions -/

namespace EntityDecl

variable {e : EntityDecl}

/-- **Whether a permission leads to another one** of the entity type: in the
first declaration of its name, the name of the other one stands by itself. -/
def LeadsTo (e : EntityDecl) (name next : String) : Prop :=
  ∃ before p after, e.permissions = before ++ p :: after ∧ p.name = name ∧
    (∀ q ∈ before, q.name ≠ name) ∧ next ∈ p.expr.names ∧
    ∃ q ∈ e.permissions, q.name = next

/-- The successors of a permission are what it leads to. -/
theorem mem_successors_iff_leadsTo {name next : String} :
    next ∈ e.successors name ↔ e.LeadsTo name next := by
  have hfind : ∀ p, (e.permissions.find? fun p => p.name == name) = some p ↔
      p.name = name ∧ ∃ before after, e.permissions = before ++ p :: after ∧
        ∀ q ∈ before, q.name ≠ name := by
    intro p
    rw [List.find?_eq_some_iff_append]
    simp
  unfold successors LeadsTo
  constructor
  · intro h
    split at h
    next p hp =>
      obtain ⟨hname, before, after, heq, hbefore⟩ := (hfind p).mp hp
      obtain ⟨hnext, hdeclared⟩ := PermissionExpr.mem_references_iff.mp h
      exact ⟨before, p, after, heq, hname, hbefore, hnext, hdeclared⟩
    next => exact absurd h List.not_mem_nil
  · rintro ⟨before, p, after, heq, hname, hbefore, hnext, hdeclared⟩
    rw [(hfind p).mpr ⟨hname, before, after, heq, hbefore⟩]
    exact PermissionExpr.mem_references_iff.mpr ⟨hnext, hdeclared⟩

/-- So a walk along successors is a walk along what is led to. -/
theorem successors_eq_leadsTo :
    (fun node next => next ∈ e.successors node) = e.LeadsTo := by
  funext name next
  exact propext mem_successors_iff_leadsTo

/-- What is reported is what the search without a bound finds. -/
theorem exists_explores_permissions (e : EntityDecl) :
    ∃ outcome,
      Explores e.successors [] [] (e.permissions.map PermissionDecl.name)
        outcome ∧
      ∀ path, e.cycle? = some path ↔ outcome = .error path := by
  have hnames : ∀ node, ∀ next ∈ e.successors node,
      next ∈ e.permissions.map PermissionDecl.name :=
    fun _ _ => mem_names_of_mem_successors
  have hrun := explores_foldlM_searchCycle hnames (List.Subset.refl _) []
  rw [List.length_map, List.foldlM_map] at hrun
  refine ⟨_, hrun, fun path => ?_⟩
  unfold cycle?
  dsimp only
  split
  next found hsearch => rw [hsearch, Option.some.injEq, Except.error.injEq]
  next visited hsearch =>
    rw [hsearch]
    exact iff_of_false nofun nofun

/-- **The search for cycles is exact.** It reports something exactly if some
permission of the entity type leads back to itself. What it reports is a
path that ends where it begins, passes nothing twice on its way round, and
leads from each permission to one that it leads to. And it needs no bound: on
every finite graph, and from whatever nodes it starts, the search comes to an
end, and to one thing only; for an entity type, this is the path that is
reported. -/
theorem cycle_search_is_exact (e : EntityDecl) :
    (e.cycle?.isSome ↔ ∃ name, Relation.TransGen e.LeadsTo name name) ∧
    (∀ path, e.cycle? = some path → ∃ node inner,
      path = node :: inner ++ [node] ∧ (node :: inner).Nodup ∧
        path.IsChain e.LeadsTo) ∧
    (∀ graph visited nodes, ∃ outcome,
      Explores (graphSuccessors graph) [] visited nodes outcome ∧
        ∀ other, Explores (graphSuccessors graph) [] visited nodes other →
          other = outcome) ∧
    (∃ outcome, Explores e.successors [] []
        (e.permissions.map PermissionDecl.name) outcome ∧
      ∀ path, e.cycle? = some path ↔ outcome = .error path) := by
  refine ⟨?_, fun path hpath => ?_, fun graph visited nodes => ?_, ?_⟩
  · rw [Option.isSome_iff_ne_none, Ne, cycle?_eq_none_iff,
      successors_eq_leadsTo]
    push Not
    rfl
  · rw [← successors_eq_leadsTo]
    exact isCycle_of_cycle? hpath
  · obtain ⟨outcome, h⟩ := exists_explores graph visited nodes
    exact ⟨outcome, h, fun other hother => hother.unique h⟩
  · exact e.exists_explores_permissions

/-- Whoever edits may view, whoever owns may edit, and whoever views owns; a
second declaration of `own` would break the circle, but does not count. -/
def circularDocument : EntityDecl where
  name := "document"
  permissions := [⟨"view", .binary .or (.member "parent" "view") (.name "edit")⟩,
    ⟨"edit", .not (.name "own")⟩, ⟨"own", .name "view"⟩,
    ⟨"own", .member "parent" "own"⟩]

/-- The circle is found, and it is one. -/
theorem circularDocument_search_is_exact :
    circularDocument.cycle? = some ["view", "edit", "own", "view"] ∧
      (∃ name, Relation.TransGen circularDocument.LeadsTo name name) ∧
      ["view", "edit", "own", "view"].IsChain circularDocument.LeadsTo := by
  have hfound : circularDocument.cycle?
      = some ["view", "edit", "own", "view"] := by decide +kernel
  obtain ⟨hexact, hcycle, -⟩ := cycle_search_is_exact circularDocument
  obtain ⟨_, _, -, -, hchain⟩ := hcycle _ hfound
  exact ⟨hfound, hexact.mp (by rw [hfound]; rfl), hchain⟩

end EntityDecl

end Entitlement
