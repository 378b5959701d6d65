import EstreeLint.Proofs.Estree.Settled
import EstreeLint.Syntax.Arena
import Mathlib.Data.List.Perm.Basic

/-!
What the walks with a stack do: one visits the nodes of a tree in preorder, the other notes the
parent of each of them, as long as no two have the same number.
-/

namespace EstreeLint

namespace Tree

variable {α : Type}

/-- A walk with a stack visits in preorder. -/
theorem visit_eq (stack : List (Tree α)) : visit stack = forestNodes stack := by
  induction stack using visit.induct with
  | case1 => simp [visit, forestNodes]
  | case2 t stack ih => rw [visit, ih, forestNodes, nodes_eq, forestNodes_append]; rfl

theorem walk_eq (t : Tree α) : t.walk = t.descendants := visit_eq t.children

/-- What is visited is on the stack already, or another node that is visited holds it. -/
lemma mem_or_exists_parent {c : Tree α} {stack : List (Tree α)} (h : c ∈ forestNodes stack) :
    c ∈ stack ∨ ∃ n ∈ forestNodes stack, c ∈ n.children := by
  induction stack using visit.induct with
  | case1 => simp [forestNodes] at h
  | case2 t stack ih =>
    rw [forestNodes, nodes_eq, List.cons_append, descendants, ← forestNodes_append,
      List.mem_cons] at h ⊢
    obtain rfl | h := h
    · exact .inl (.inl rfl)
    obtain hc | ⟨n, hn, hc⟩ := ih h
    · rcases List.mem_append.1 hc with hc | hc
      · exact .inr ⟨t, List.mem_cons_self, hc⟩
      · exact .inl (.inr hc)
    · exact .inr ⟨n, List.mem_cons_of_mem _ hn, hc⟩

/-- Every node below the root is held by a node. -/
lemma exists_parent {c root : Tree α} (h : c ∈ root.descendants) :
    ∃ n ∈ root.nodes, c ∈ n.children := by
  rw [nodes_eq]
  obtain hc | ⟨n, hn, hc⟩ := mem_or_exists_parent h
  · exact ⟨root, List.mem_cons_self, hc⟩
  · exact ⟨n, List.mem_cons_of_mem _ hn, hc⟩

lemma forestNodes_eq_flatMap (ts : List (Tree α)) : forestNodes ts = ts.flatMap nodes := by
  induction ts with
  | nil => rfl
  | cons t ts ih => rw [forestNodes, ih, List.flatMap_cons]

/-- What lies below a node on the stack is what it holds and what lies below that. -/
lemma descendants_perm (t : Tree α) (stack : List (Tree α)) :
    ((t :: stack).flatMap descendants).Perm
      (t.children ++ (t.children.reverse ++ stack).flatMap descendants) := by
  have hbelow : t.descendants.Perm (t.children ++ t.children.flatMap descendants) := by
    have hnodes : (nodes : Tree α → _) = fun c => [c] ++ descendants c := funext nodes_eq
    have h := List.flatMap_append_perm t.children (fun c => [c]) descendants
    rw [List.flatMap_singleton', ← hnodes, ← forestNodes_eq_flatMap] at h
    exact h.symm
  have hreverse : (t.children.flatMap descendants).Perm (t.children.reverse.flatMap descendants) :=
    .flatMap_right _ t.children.reverse_perm.symm
  rw [List.flatMap_cons, List.flatMap_append, ← List.append_assoc]
  exact (hbelow.trans (hreverse.append_left _)).append_right _

end Tree

namespace Arena

variable {parents : Array (Option Nat)}

/-- The same parent is noted for each of some nodes. -/
lemma getElem?_note (cs : List Node) (p : Option Nat) (i : Nat) :
    (cs.foldl (fun ps c => ps.setIfInBounds c.index p) parents)[i]? =
      if i ∈ cs.map Tree.index ∧ i < parents.size then some p else parents[i]? := by
  induction cs generalizing parents with
  | nil => simp
  | cons c cs ih =>
    rw [List.foldl_cons, ih, Array.size_setIfInBounds, Array.getElem?_setIfInBounds]
    by_cases hc : c.index = i
    · subst hc
      by_cases hsize : c.index < parents.size <;> simp [hsize]
    · have hne : i ≠ c.index := fun e => hc e.symm
      simp only [hc, hne, List.map_cons, List.mem_cons, false_or, if_false]

lemma size_note (cs : List Node) (p : Option Nat) :
    (cs.foldl (fun ps c => ps.setIfInBounds c.index p) parents).size = parents.size := by
  induction cs generalizing parents with
  | nil => rfl
  | cons c cs ih => rw [List.foldl_cons, ih, Array.size_setIfInBounds]

/-- A node is taken from the stack, and what it holds is put there. -/
lemma bind_cons {n : Node} {stack : List Node} (hlt : ∀ c ∈ n.children, c.index < parents.size) :
    bind parents (n :: stack) =
      bind (n.children.foldl (fun ps c => ps.setIfInBounds c.index (some n.index)) parents)
        (n.children.reverse ++ stack) := by
  have hall : n.children.filter (·.index < parents.size) = n.children := by simpa using hlt
  rw [bind, hall]

/-- **Parents are noted for the nodes below the stack and for no others.** -/
theorem bind_spec (parents : Array (Option Nat)) (stack : List Node)
    (hlt : ∀ c ∈ stack.flatMap Tree.descendants, c.index < parents.size)
    (hnodup : ((stack.flatMap Tree.descendants).map Tree.index).Nodup) :
    (∀ n ∈ Tree.forestNodes stack, ∀ c ∈ n.children,
      (bind parents stack)[c.index]? = some (some n.index)) ∧
    ∀ i, i ∉ (stack.flatMap Tree.descendants).map Tree.index →
      (bind parents stack)[i]? = parents[i]? := by
  induction parents, stack using bind.induct with
  | case1 => simp [bind, Tree.forestNodes]
  | case2 parents n stack parts ih =>
    have hperm := Tree.descendants_perm n stack
    have hchild (c : Node) (hc : c ∈ n.children) : c.index < parents.size :=
      hlt c (hperm.mem_iff.2 (List.mem_append_left _ hc))
    have hall : parts = n.children := by simpa [parts] using hchild
    have hbelow := (hperm.map Tree.index).nodup_iff.1 hnodup
    rw [List.map_append, List.nodup_append] at hbelow
    obtain ⟨-, hnodup', hdisjoint⟩ := hbelow
    rw [hall] at ih
    obtain ⟨hnoted, hrest⟩ := ih (fun c hc => by
      rw [size_note]
      exact hlt c (hperm.mem_iff.2 (List.mem_append_right _ hc))) hnodup'
    rw [bind_cons hchild]
    refine ⟨fun m hm c hc => ?_, fun i hi => ?_⟩
    · rw [Tree.forestNodes, Tree.nodes_eq] at hm
      rcases List.mem_cons.1 hm with rfl | hm
      -- the node itself: what is noted for its parts is not changed later
      · have hmem := List.mem_map_of_mem (f := Tree.index) hc
        have hkept := hrest c.index fun hin => hdisjoint _ hmem _ hin rfl
        rw [hkept, getElem?_note, if_pos ⟨hmem, hchild c hc⟩]
      · refine hnoted m ?_ c hc
        rw [Tree.forestNodes_append, List.mem_append]
        refine (List.mem_append.1 hm).imp (fun h => ?_) id
        simpa [Tree.descendants, Tree.mem_forestNodes] using h
    · rw [(hperm.map Tree.index).mem_iff, List.map_append, List.mem_append, not_or] at hi
      rw [hrest i hi.2, getElem?_note, if_neg fun h => hi.1 h.1]

/-- The parent of a node is the one that holds it, and the root has none. -/
theorem parentOf_bindParents (a : Arena) {root : Node}
    (hlt : ∀ n ∈ root.nodes, n.index < a.nodes.size) (hids : (root.nodes.map Tree.index).Nodup) :
    (∀ n ∈ root.nodes, ∀ c ∈ n.children,
      (a.bindParents root).parentOf c.index = some n.index) ∧
    (a.bindParents root).parentOf root.index = none := by
  have hnodes : Tree.forestNodes [root] = root.nodes := List.append_nil _
  have hstack : [root].flatMap Tree.descendants = root.descendants := List.append_nil _
  have hrootLt := hlt root (Tree.mem_nodes_self root)
  rw [Tree.nodes_eq, List.map_cons, List.nodup_cons] at hids
  obtain ⟨hroot, hbelow⟩ := hids
  obtain ⟨hnoted, hrest⟩ := bind_spec (.replicate a.nodes.size none) [root] (fun c hc => by
    rw [hstack] at hc
    rw [Array.size_replicate]
    exact hlt c (by simp [Tree.nodes_eq, hc])) (by rwa [hstack])
  rw [hnodes] at hnoted
  rw [hstack] at hrest
  refine ⟨fun n hn c hc => ?_, ?_⟩
  · rw [parentOf, bindParents, hnoted n hn c hc, Option.join_some]
  · rw [parentOf, bindParents, hrest _ hroot, Array.getElem?_replicate, if_pos hrootLt,
      Option.join_some]

end Arena

end EstreeLint
