import Sift.Filter.Basic

/-!
# Nodes of a filter

The parts of a tree in the order in which it is written: a group before the
filters in it, and these from left to right.

* `Filter.nodes`: the nodes, and `Filter.mem_nodes_group`: those of a group.
-/

namespace Sift.Filter

mutual

/-- The nodes of a filter: itself, and then the nodes of the filters in it. -/
def nodes : Filter → List Filter
  | condition c => [condition c]
  | group connective fs => group connective fs :: nodesIn fs
termination_by structural f => f

/-- The nodes of the filters of a group, one filter after the other. -/
def nodesIn : List Filter → List Filter
  | [] => []
  | f :: fs => f.nodes ++ nodesIn fs
termination_by structural fs => fs

end

theorem mem_nodesIn {node : Filter} {fs : List Filter} :
    node ∈ nodesIn fs ↔ ∃ f ∈ fs, node ∈ f.nodes := by
  induction fs with
  | nil => simp [nodesIn]
  | cons f fs ih => simp [nodesIn, ih]

theorem mem_nodes_condition {node : Filter} {c : Condition} :
    node ∈ (condition c).nodes ↔ node = condition c := by rw [nodes, List.mem_singleton]

theorem mem_nodes_group {node : Filter} {connective : Connective} {fs : List Filter} :
    node ∈ (group connective fs).nodes ↔
      node = group connective fs ∨ ∃ f ∈ fs, node ∈ f.nodes := by
  rw [nodes, List.mem_cons, mem_nodesIn]

end Sift.Filter
