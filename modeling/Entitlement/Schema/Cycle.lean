import Entitlement.Schema.Document

/-!
# Cycles among permissions

A permission that refers to itself, directly or through other permissions
of its entity type, would have no meaning. `EntityDecl.cycle?` searches
the graph whose edges are the bare references from a permission to
permissions, depth first and in the order of declaration. A reference
through a relation leads to another entity and is no edge.

The search visits every permission once: one that was left without a cycle
lies on none, so it is not entered again. Each entry makes the path one
permission longer, and a path repeats no permission, so the number of
permissions bounds its depth.
-/

namespace Entitlement

/-- The bare references of an expression to permissions of `e`, from left
to right. -/
def PermissionExpr.references (e : EntityDecl) : PermissionExpr → List String
  | name n => if e.hasPermission n then [n] else []
  | not operand => operand.references e
  | binary _ left right => left.references e ++ right.references e
  | member .. | call .. | inline _ => []

namespace EntityDecl

/-- The permissions that a permission refers to; of two permissions with
one name the first counts. -/
def successors (e : EntityDecl) (permission : String) : List String :=
  match e.permissions.find? fun p => p.name == permission with
  | some p => p.expr.references e
  | none => []

end EntityDecl

/-- The cycle that a path closes by coming back to `node`; the path has
its end in front. -/
def closeCycle (path : List String) (node : String) : List String :=
  node :: (path.takeWhile fun n => n != node).reverse ++ [node]

/-- **Depth-first search from a node.** `path` leads to the node, its end
in front, and `visited` holds what was entered before. A cycle ends the
search; otherwise it returns all that was entered. -/
def searchCycle (successors : String → List String) :
    Nat → List String → List String → String →
      Except (List String) (List String)
  | 0, _, visited, _ => .ok visited
  | depth + 1, path, visited, node =>
    if path.contains node then .error (closeCycle path node)
    else if visited.contains node then .ok visited
    else
      (successors node).foldlM (searchCycle successors depth (node :: path))
        (node :: visited)

/-- **The first cycle among the permissions of an entity type**, as a path
that ends where it begins. -/
def EntityDecl.cycle? (e : EntityDecl) : Option (List String) :=
  let search := e.permissions.foldlM
    (fun visited p =>
      searchCycle e.successors (e.permissions.length + 1) [] visited p.name)
    []
  match search with
  | .error cycle => some cycle
  | .ok _ => none

end Entitlement
