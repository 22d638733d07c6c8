import Entitlement.Proofs.Schema.Acyclic
import Mathlib.Data.List.Chain
import Mathlib.Data.List.Nodup

/-!
# A cycle that is found is one

The search for cycles reports a path that ends where it begins. Such a path
leads along references and passes nothing twice on its way round
(`isCycle_of_searchCycle`). Together with `EntityDecl.isGrounded_of_cycle?`
this makes the search exact: it finds nothing exactly if no permission leads
back to itself (`EntityDecl.cycle?_eq_none_iff`).

The path of the search has its end in front, so what is proved of it is that
every node is a successor of the one behind it; turned around, that is the way
the cycle leads.
-/

namespace Entitlement

variable {successors : String → List String}

/-- **Whether a path is a cycle**: it ends where it begins, passes no node
twice before it is back, and leads from each node to a successor. -/
def IsCycle (successors : String → List String) (path : List String) : Prop :=
  ∃ node inner, path = node :: inner ++ [node] ∧ (node :: inner).Nodup ∧
    path.IsChain fun node next => next ∈ successors node

/-- A cycle leads back to where it begins. -/
theorem IsCycle.exists_transGen {path : List String}
    (h : IsCycle successors path) : ∃ node, Relation.TransGen
      (fun node next => next ∈ successors node) node node := by
  obtain ⟨node, inner, rfl, -, hchain⟩ := h
  refine ⟨node, ?_⟩
  cases inner with
  | nil => exact .single (List.isChain_pair.mp hchain)
  | cons next inner =>
    obtain ⟨hnext, hrest⟩ := List.isChain_cons_cons.mp hchain
    refine Relation.TransGen.head' hnext ?_
    exact List.relationReflTransGen_of_exists_isChain_cons (inner ++ [node])
      hrest (by simp)

/-- **A path that comes back to one of its nodes closes a cycle.** -/
theorem isCycle_closeCycle {path : List String} {node : String}
    (hchain : (node :: path).IsChain
      fun later earlier => later ∈ successors earlier)
    (hnodup : path.Nodup) (hmem : node ∈ path) :
    IsCycle successors (closeCycle path node) := by
  obtain ⟨front, back, rfl, hfront⟩ := List.eq_append_cons_of_mem hmem
  have hne : ∀ n ∈ front, (n != node) = true := by
    intro n hn
    rw [bne_iff_ne]
    rintro rfl
    exact hfront hn
  have hclose : closeCycle (front ++ node :: back) node
      = node :: front.reverse ++ [node] := by
    unfold closeCycle
    rw [List.takeWhile_append_of_pos hne, List.takeWhile_cons_of_neg (by simp),
      List.append_nil]
  refine ⟨node, front.reverse, hclose, ?_, ?_⟩
  · rw [List.nodup_cons, List.mem_reverse, List.nodup_reverse]
    exact ⟨hfront, (List.nodup_append.mp hnodup).1⟩
  · have hround : (node :: front ++ [node]).IsChain
        fun later earlier => later ∈ successors earlier :=
      hchain.prefix ⟨back, by simp⟩
    rw [hclose, show node :: front.reverse ++ [node]
      = (node :: front ++ [node]).reverse by simp, List.isChain_reverse]
    exact hround

/-- **What the search reports is a cycle**, if its path has come along
successors and repeats none. -/
theorem isCycle_of_searchCycle {depth : Nat} {path visited cycle : List String}
    {node : String}
    (hchain : (node :: path).IsChain
      fun later earlier => later ∈ successors earlier)
    (hnodup : path.Nodup)
    (h : searchCycle successors depth path visited node = .error cycle) :
    IsCycle successors cycle := by
  induction depth generalizing path visited node with
  | zero => cases h
  | succ depth ih =>
    unfold searchCycle at h
    split at h
    next hin =>
      cases h
      exact isCycle_closeCycle hchain hnodup (List.contains_iff_mem.mp hin)
    next hout =>
      rw [List.contains_iff_mem] at hout
      split at h
      next => cases h
      next =>
        -- it is reported from a successor, with the node on the path
        obtain ⟨next, hnext, visited', hstep⟩ :=
          Outcome.exists_of_foldlM_eq_error h
        exact ih (List.isChain_cons_cons.mpr ⟨hnext, hchain⟩)
          (List.nodup_cons.mpr ⟨hout, hnodup⟩) hstep

namespace EntityDecl

variable {e : EntityDecl}

/-- **What is reported for an entity type is a cycle among its
permissions.** -/
theorem isCycle_of_cycle? {cycle : List String} (h : e.cycle? = some cycle) :
    IsCycle e.successors cycle := by
  unfold cycle? at h
  dsimp only at h
  split at h
  next found hsearch =>
    cases h
    obtain ⟨p, -, visited, hstep⟩ := Outcome.exists_of_foldlM_eq_error hsearch
    exact isCycle_of_searchCycle (List.isChain_singleton _) List.nodup_nil
      hstep
  next => cases h

/-- **No cycle is found exactly if no permission leads back to itself.** -/
theorem cycle?_eq_none_iff : e.cycle? = none ↔ ∀ name, ¬ Relation.TransGen
    (fun node next => next ∈ e.successors node) name name := by
  constructor
  · intro h name hcycle
    -- it has a successor, so it is declared
    obtain ⟨next, hnext, -⟩ := Relation.TransGen.head'_iff.mp hcycle
    unfold successors at hnext
    split at hnext
    next p hp =>
      have hgrounded :=
        isGrounded_of_cycle? h p (List.mem_of_find?_eq_some hp)
      have hname : p.name = name := by simpa using List.find?_some hp
      rw [hname] at hgrounded
      exact hgrounded.not_transGen hcycle
    next => exact absurd hnext List.not_mem_nil
  · intro h
    cases hcycle : e.cycle? with
    | none => rfl
    | some cycle =>
      obtain ⟨name, hname⟩ := (isCycle_of_cycle? hcycle).exists_transGen
      exact absurd hname (h name)

end EntityDecl

end Entitlement
