/-!
Trees with labelled nodes and ordered children, and the orders in which they are walked.
-/

namespace EstreeLint

inductive Tree (α : Type) where
  | node (label : α) (children : List (Tree α))

namespace Tree

variable {α : Type}

def label : Tree α → α
  | .node a _ => a

def children : Tree α → List (Tree α)
  | .node _ ts => ts

def mapLabel (f : α → α) : Tree α → Tree α
  | .node a ts => .node (f a) ts

@[simp] theorem label_node (a : α) (ts : List (Tree α)) : (node a ts).label = a := rfl

@[simp] theorem children_node (a : α) (ts : List (Tree α)) : (node a ts).children = ts := rfl

mutual

/-- Levels of a tree: one for a leaf. -/
def height : Tree α → Nat
  | .node _ ts => forestHeight ts + 1

def forestHeight : List (Tree α) → Nat
  | [] => 0
  | t :: ts => max (height t) (forestHeight ts)

end

mutual

/-- The nodes of a tree in preorder, the root first. -/
def nodes : Tree α → List (Tree α)
  | .node a ts => .node a ts :: forestNodes ts

def forestNodes : List (Tree α) → List (Tree α)
  | [] => []
  | t :: ts => nodes t ++ forestNodes ts

end

mutual

/-- The nodes of a tree in preorder, each with its ancestors, nearest first. -/
def paths (above : List (Tree α)) : Tree α → List (List (Tree α) × Tree α)
  | .node a ts => (above, .node a ts) :: forestPaths (.node a ts :: above) ts

def forestPaths (above : List (Tree α)) : List (Tree α) → List (List (Tree α) × Tree α)
  | [] => []
  | t :: ts => paths above t ++ forestPaths above ts

end

/-- The nodes below the root, in preorder. -/
def descendants (t : Tree α) : List (Tree α) := forestNodes t.children

theorem nodes_eq (t : Tree α) : t.nodes = t :: t.descendants := by
  cases t; rfl

theorem forestNodes_append (us vs : List (Tree α)) :
    forestNodes (us ++ vs) = forestNodes us ++ forestNodes vs := by
  induction us with
  | nil => rfl
  | cons u us ih => simp [forestNodes, ih]

theorem length_forestNodes_reverse (ts : List (Tree α)) :
    (forestNodes ts.reverse).length = (forestNodes ts).length := by
  induction ts with
  | nil => rfl
  | cons t ts ih =>
    rw [List.reverse_cons, forestNodes_append]
    simp only [forestNodes, List.append_nil, List.length_append, ih]
    exact Nat.add_comm ..

theorem length_forestNodes_filter_le (p : Tree α → Bool) (ts : List (Tree α)) :
    (forestNodes (ts.filter p)).length ≤ (forestNodes ts).length := by
  induction ts with
  | nil => exact Nat.le_refl _
  | cons t ts ih =>
    rw [List.filter_cons]
    split <;> simp only [forestNodes, List.length_append] <;> omega

/-- The nodes of the trees on a stack: what a node holds comes on top when it is visited. -/
def visit : List (Tree α) → List (Tree α)
  | [] => []
  | t :: stack => t :: visit (t.children ++ stack)
termination_by stack => (forestNodes stack).length
decreasing_by cases t; simp [forestNodes, nodes, forestNodes_append]

/-- The nodes below the root, as they are visited. -/
def walk (t : Tree α) : List (Tree α) := visit t.children

theorem height_le_forestHeight {t : Tree α} {ts : List (Tree α)} (h : t ∈ ts) :
    t.height ≤ forestHeight ts := by
  induction ts with
  | nil => simp at h
  | cons u us ih =>
    simp only [forestHeight]
    rcases List.mem_cons.1 h with rfl | h
    · exact Nat.le_max_left ..
    · exact Nat.le_trans (ih h) (Nat.le_max_right ..)

/-- A child is lower than its parent. -/
theorem height_lt_of_mem {t u : Tree α} (h : u ∈ t.children) : u.height < t.height := by
  cases t with
  | node a ts => exact Nat.lt_succ_of_le (height_le_forestHeight h)

end Tree

end EstreeLint
