import EstreeLint.Syntax.Node

/-!
The nodes that a parse has made, and where each of them belongs.

A node is numbered by its place in the arena. The arena also holds nodes that are in no tree: some
have been given up, and some have been taken apart again.
-/

namespace EstreeLint

structure Arena where
  nodes : Array Node
  /-- The number of each node's parent, for the nodes below the root. -/
  parents : Array (Option Nat) := #[]

namespace Arena

def get? (a : Arena) (i : Nat) : Option Node := a.nodes[i]?

/-- Notes the parents of all nodes that are below one on a stack. -/
def bind (parents : Array (Option Nat)) : List Node → Array (Option Nat)
  | [] => parents
  | n :: stack =>
    let parts := n.children.filter (·.index < parents.size)
    bind (parts.foldl (fun ps c => ps.setIfInBounds c.index (some n.index)) parents)
      (parts.reverse ++ stack)
termination_by stack => (Tree.forestNodes stack).length
decreasing_by
  have hfilter := Tree.length_forestNodes_filter_le (·.index < parents.size) n.children
  rw [Tree.forestNodes_append, List.length_append, Tree.length_forestNodes_reverse,
    Tree.forestNodes, Tree.nodes_eq, Tree.descendants, List.length_append, List.length_cons]
  omega

/-- The arena with the parents of all nodes in a tree. -/
def bindParents (a : Arena) (root : Node) : Arena :=
  { a with parents := bind (.replicate a.nodes.size none) [root] }

/-- The number of a node's parent. -/
def parentOf (a : Arena) (i : Nat) : Option Nat := a.parents[i]?.join

end Arena

end EstreeLint
