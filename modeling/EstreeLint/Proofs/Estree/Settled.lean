import EstreeLint.Estree.Conversion
import Mathlib.Tactic.Common

/-!
Nodes that stand where they say: the range of a node has the ranges of its children in it, and
its location is that of its range.

`settle` makes a node stand right whose children do, and an edit of a node's fields keeps it
right as long as what is put in lies within its range.
-/

namespace EstreeLint

namespace Span

lemma contains_iff (s t : Span) : s.contains t = true ↔ s.start ≤ t.start ∧ t.stop ≤ s.stop := by
  simp [contains]

lemma contains_trans {s t u : Span} (h : s.contains t = true) (h' : t.contains u = true) :
    s.contains u = true := by
  rw [contains_iff] at *
  omega

lemma contains_refl (s : Span) : s.contains s = true := by simp [contains_iff]

end Span

namespace Tree

variable {α : Type}

lemma mem_forestNodes {ts : List (Tree α)} {u : Tree α} :
    u ∈ forestNodes ts ↔ ∃ t ∈ ts, u ∈ t.nodes := by
  induction ts with
  | nil => simp [forestNodes]
  | cons t ts ih => simp [forestNodes, ih]

lemma mem_nodes_self (t : Tree α) : t ∈ t.nodes := by simp [nodes_eq]

/-- What holds of all nodes of a tree holds of the root and throughout its children. -/
lemma forall_mem_nodes {P : Tree α → Prop} {t : Tree α} :
    (∀ u ∈ t.nodes, P u) ↔ P t ∧ ∀ c ∈ t.children, ∀ u ∈ c.nodes, P u := by
  simp only [nodes_eq t, descendants, List.mem_cons, mem_forestNodes]
  constructor
  · intro h
    exact ⟨h t (.inl rfl), fun c hc u hu => h u (.inr ⟨c, hc, hu⟩)⟩
  · rintro ⟨ht, hc⟩ u (rfl | ⟨c, hct, hu⟩)
    · exact ht
    · exact hc c hct u hu

/-- The least span over a span and some nodes contains both. -/
lemma contains_widenOver (r : Span) (ns : List EsNode) :
    (widenOver r ns).contains r = true ∧ ∀ n ∈ ns, (widenOver r ns).contains n.range = true := by
  induction ns generalizing r with
  | nil => simp [widenOver, Span.contains_refl]
  | cons m ns ih =>
    obtain ⟨hr, hns⟩ := ih (r.widen m.range)
    change (widenOver r (m :: ns)).contains _ = true at hr
    refine ⟨Span.contains_trans hr (Span.contains_widen_left _ _), ?_⟩
    rintro n (_ | ⟨_, hn⟩)
    · exact Span.contains_trans hr (Span.contains_widen_right _ _)
    · exact hns n hn

@[simp] lemma range_inField (f : Estree.Field) (n : EsNode) : (n.inField f).range = n.range := by
  cases n; rfl

end Tree

namespace Estree

/-- The children of a node lie within it, and its location is that of its range. -/
structure InPlace (file : SourceFile) (n : EsNode) : Prop where
  covers : ∀ c ∈ n.children, n.range.contains c.range = true
  located : n.loc = Convert.locate file n.range

/-- All nodes of a tree stand where they say. -/
def Settled (file : SourceFile) (n : EsNode) : Prop := ∀ m ∈ n.nodes, InPlace file m

variable {file : SourceFile} {n : EsNode}

lemma settled_iff : Settled file n ↔ InPlace file n ∧ ∀ c ∈ n.children, Settled file c :=
  Tree.forall_mem_nodes

lemma Settled.child (h : Settled file n) {c : EsNode} (hc : c ∈ n.children) : Settled file c :=
  (settled_iff.1 h).2 c hc

lemma Settled.inPlace (h : Settled file n) : InPlace file n := (settled_iff.1 h).1

@[simp] lemma settled_inField (f : Field) : Settled file (n.inField f) ↔ Settled file n := by
  obtain ⟨l, cs⟩ := n
  rw [settled_iff, settled_iff]
  refine and_congr_left fun _ => ?_
  constructor <;> rintro ⟨h, h'⟩ <;> exact ⟨h, h'⟩

/-- A new node stands right. -/
lemma settled_make (l : Label) (r : Span) {cs : List EsNode} (hc : ∀ c ∈ cs, Settled file c)
    (hr : l.range = Tree.widenOver r cs) (hl : l.loc = Convert.locate file l.range) :
    Settled file (.node l cs) := by
  refine settled_iff.2 ⟨⟨?_, hl⟩, hc⟩
  intro c hcs
  change l.range.contains c.range = true
  rw [hr]
  exact (Tree.contains_widenOver r cs).2 c hcs

lemma settled_settle (h : ∀ c ∈ n.children, Settled file c) :
    Settled file (Convert.settle file n) := by
  obtain ⟨l, cs⟩ := n
  exact settled_make _ l.range h rfl rfl

/-! ### Edits -/

lemma mem_children_setSlot {f : Field} {slot : Slot} {ns : List EsNode} {c : EsNode}
    (h : c ∈ (n.setSlot f slot ns).children) :
    c ∈ n.children ∨ ∃ m ∈ ns, c = m.inField f := by
  obtain ⟨l, cs⟩ := n
  simp only [Tree.setSlot, Tree.children_node, List.mem_append, List.mem_map] at h
  rcases h with (h | ⟨m, hm, rfl⟩) | h
  · exact .inl (List.takeWhile_subset _ h)
  · exact .inr ⟨m, hm, rfl⟩
  · exact .inl ((List.dropWhile_sublist _).subset h)

lemma children_setSlot_settled {f : Field} {slot : Slot} {ns : List EsNode}
    (hn : ∀ c ∈ n.children, Settled file c) (hns : ∀ m ∈ ns, Settled file m) :
    ∀ c ∈ (n.setSlot f slot ns).children, Settled file c := by
  intro c hc
  rcases mem_children_setSlot hc with h | ⟨m, hm, rfl⟩
  · exact hn c h
  · exact (settled_inField f).2 (hns m hm)

/-- An edit that puts in what lies within the node needs no new range. -/
lemma settled_setSlot {f : Field} {slot : Slot} {ns : List EsNode} (h : Settled file n)
    (hns : ∀ m ∈ ns, Settled file m ∧ n.range.contains m.range = true) :
    Settled file (n.setSlot f slot ns) := by
  refine settled_iff.2 ⟨⟨?_, h.inPlace.located⟩,
    children_setSlot_settled (fun c => h.child) fun m hm => (hns m hm).1⟩
  intro c hc
  rcases mem_children_setSlot hc with hc | ⟨m, hm, rfl⟩
  · exact h.inPlace.covers c hc
  · rw [Tree.range_inField]
    exact (hns m hm).2

lemma mem_of_child? {f : Field} {c : EsNode} (h : n.child? f = some c) : c ∈ n.children :=
  List.mem_of_find?_eq_some h

/-! ### Parts -/

/-- A property of nodes that does not hang on the field that they stand in. -/
class Steady (P : EsNode → Prop) : Prop where
  inField (f : Field) (n : EsNode) : P (n.inField f) ↔ P n

instance : Steady (Settled file) := ⟨fun _ _ => settled_inField _⟩

/-- The nodes in the parts of a node under construction have the property. -/
def PartsHold (P : EsNode → Prop) (ps : List Part) : Prop := ∀ c ∈ ps.flatMap Part.nodes, P c

abbrev PartsSettled (file : SourceFile) (ps : List Part) : Prop := PartsHold (Settled file) ps

section Parts

variable {P : EsNode → Prop} (f : Field) (ps : List Part)

@[simp] lemma partsHold_nil : PartsHold P [] := by simp [PartsHold]

@[simp] lemma partsHold_append (qs : List Part) :
    PartsHold P (ps ++ qs) ↔ PartsHold P ps ∧ PartsHold P qs := by
  simp [PartsHold, List.mem_append, or_imp, forall_and]

lemma partsHold_cons (p : Part) :
    PartsHold P (p :: ps) ↔ (∀ c ∈ p.nodes, P c) ∧ PartsHold P ps := by
  simp [PartsHold, or_imp, forall_and]

@[simp] lemma partsHold_value (v : Value) :
    PartsHold P (.value f v :: ps) ↔ PartsHold P ps := by
  simp [partsHold_cons, Part.nodes]

@[simp] lemma partsHold_flag (b : Bool) : PartsHold P (.flag f b :: ps) ↔ PartsHold P ps :=
  partsHold_value f ps _

@[simp] lemma partsHold_text (s : String) : PartsHold P (.text f s :: ps) ↔ PartsHold P ps :=
  partsHold_value f ps _

@[simp] lemma partsHold_text? (s : Option String) :
    PartsHold P (.text? f s :: ps) ↔ PartsHold P ps := by
  cases s <;> exact partsHold_value f ps _

@[simp] lemma partsHold_absent : PartsHold P (.absent :: ps) ↔ PartsHold P ps := by
  simp [partsHold_cons, Part.nodes]

/-- A mark is a value or left out. -/
@[simp] lemma partsHold_mappedMark (n : Node) (r : Role) :
    PartsHold P (Convert.mappedMark n r f :: ps) ↔ PartsHold P ps := by
  unfold Convert.mappedMark
  split <;> simp

variable [Steady P]

@[simp] lemma partsHold_one (m : EsNode) :
    PartsHold P (.one f m :: ps) ↔ P m ∧ PartsHold P ps := by
  simp [partsHold_cons, Part.nodes, Steady.inField]

@[simp] lemma partsHold_one? (m : Option EsNode) :
    PartsHold P (.one? f m :: ps) ↔ (∀ c ∈ m, P c) ∧ PartsHold P ps := by
  cases m <;> simp [Part.one?]

@[simp] lemma partsHold_extra (m : Option EsNode) :
    PartsHold P (.extra f m :: ps) ↔ (∀ c ∈ m, P c) ∧ PartsHold P ps := by
  cases m <;> simp [Part.extra]

@[simp] lemma partsHold_many (ms : List (Option EsNode)) :
    PartsHold P (.many f ms :: ps) ↔ (∀ m ∈ ms, ∀ c ∈ m, P c) ∧ PartsHold P ps := by
  simp only [partsHold_cons, Part.nodes, List.mem_filterMap]
  refine and_congr_left fun _ => ⟨fun h m hm c hc => ?_, ?_⟩
  · exact (Steady.inField f c).1 (h _ ⟨m, hm, by rw [hc]; rfl⟩)
  · rintro h c ⟨m, hm, hc⟩
    obtain ⟨c, rfl, rfl⟩ := Option.map_eq_some_iff.1 hc
    exact (Steady.inField f c).2 (h _ hm c rfl)

@[simp] lemma partsHold_list (ms : List EsNode) :
    PartsHold P (.list f ms :: ps) ↔ (∀ m ∈ ms, P m) ∧ PartsHold P ps := by
  simp [Part.list]

end Parts

end Estree

end EstreeLint
