import WorkflowEngine.Graph.Traversal

/-!
# Levels of a graph

The level of a node is one more than the highest level among the targets of its edges, and zero
without any. Nodes get their levels in the order in which a depth-first traversal leaves them;
a target that has no level yet lies on a cycle and does not count.
-/

namespace WorkflowEngine.Graph

def highest (ns : List Nat) : Nat := ns.foldl max 0

/-- The level of a node, given the levels of the nodes before it. -/
def levelAfter (levels : List (Option Nat)) (targets : List Nat) : Nat :=
  highest (targets.filterMap fun target => (levels.getD target none).map (· + 1))

def levels (edges : List (List Nat)) : List (Option Nat) :=
  (postorder edges).foldl
    (fun levels node => levels.set node (some (levelAfter levels (edges.getD node []))))
    (List.replicate edges.length none)

/-- Things grouped by level, each group in the order of the things. -/
def groupByLevel {α : Type} (levels : List (Option Nat)) (things : List α) : List (List α) :=
  let placed := things.zip (levels.map (·.getD 0))
  let groups := (List.range (highest (placed.map Prod.snd) + 1)).map fun level =>
    (placed.filter fun p => p.2 == level).map Prod.fst
  groups.filter fun group => !group.isEmpty

end WorkflowEngine.Graph
