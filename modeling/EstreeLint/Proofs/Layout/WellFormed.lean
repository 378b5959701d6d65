import EstreeLint.Proofs.Layout.Statements
import EstreeLint.Proofs.Syntax.Arena
import EstreeLint.SourceFile
import Mathlib.Data.List.Nodup

/-!
The tree of a source file is well formed, whatever the text is: the nodes lie within each other in
the text, the arena holds each of them under its number, and the walks over the tree find each of
them once.
-/

namespace EstreeLint

namespace Grammar

open Parse

/-! ### Nodes that have been laid out -/

/-- A node among others between two places, with its parts. -/
structure Inside (arena : Array Node) (a b : Place) (n : Node) : Prop where
  le_pos : a.pos ≤ n.pos
  stop_le : n.stop ≤ b.pos
  le_index : a.size ≤ n.index
  index_lt : n.index < b.size
  live : Live arena n
  parts : ∃ size, a.size ≤ size ∧ Laid arena ⟨n.pos, size⟩ n.children ⟨n.stop, n.index⟩

namespace Inside

variable {arena : Array Node} {a b c d : Place} {n : Node}

lemma mono (h : Inside arena a b n) (hc : c ≤ a) (hd : b ≤ d) : Inside arena c d n := by
  obtain ⟨size, hsize, hlaid⟩ := h.parts
  exact ⟨Nat.le_trans hc.1 h.le_pos, Nat.le_trans h.stop_le hd.1, Nat.le_trans hc.2 h.le_index,
    Nat.lt_of_lt_of_le h.index_lt hd.2, h.live, size, Nat.le_trans hc.2 hsize, hlaid⟩

lemma pos_le_stop (h : Inside arena a b n) : n.pos ≤ n.stop := by
  obtain ⟨_, _, hlaid⟩ := h.parts
  exact hlaid.le.1

end Inside

namespace Laid

variable {arena : Array Node} {a b : Place} {n : Node} {ns : List Node}

/-- Every node that has been laid out between two places is inside them. -/
lemma inside (h : Laid arena a ns b) : ∀ n ∈ Tree.forestNodes ns, Inside arena a b n := by
  induction h with
  | nil h => simp [Tree.forestNodes]
  | @cons a b n ns hpos hlive inner rest ih₁ ih₂ =>
    obtain ⟨hrange, hnumber⟩ := inner.le
    obtain ⟨hstop, hindex⟩ := rest.le
    intro m hm
    rw [Tree.forestNodes, Tree.nodes_eq, List.cons_append, List.mem_cons, List.mem_append] at hm
    rcases hm with rfl | hm | hm
    · exact ⟨hpos, hstop, hnumber, hindex, hlive, a.size, Nat.le_refl _, inner⟩
    · exact (ih₁ m hm).mono ⟨hpos, Nat.le_refl _⟩ ⟨hstop, Nat.le_of_lt hindex⟩
    · exact (ih₂ m hm).mono ⟨Nat.le_trans hpos hrange, Nat.le_succ_of_le hnumber⟩ (Place.le_refl _)

lemma inside_of_mem (h : Laid arena a ns b) (hn : n ∈ ns) : Inside arena a b n :=
  h.inside n (Tree.mem_forestNodes.2 ⟨n, hn, Tree.mem_nodes_self n⟩)

/-- What comes first in the list stops before the next starts. -/
lemma pairwise_stop_le (h : Laid arena a ns b) : ns.Pairwise fun c d => c.stop ≤ d.pos := by
  induction h with
  | nil => exact .nil
  | cons _ _ _ rest _ ih => exact .cons (fun d hd => (rest.inside_of_mem hd).le_pos) ih

/-- Numbers do not repeat: those of the parts come before that of a node, and those of the nodes
behind it come later. -/
lemma nodup_index (h : Laid arena a ns b) : ((Tree.forestNodes ns).map Tree.index).Nodup := by
  induction h with
  | nil => simp [Tree.forestNodes]
  | @cons a b n ns _ _ inner rest ih₁ ih₂ =>
    have hbelow (i : Nat) (hi : i ∈ n.descendants.map Tree.index) : i < n.index := by
      obtain ⟨c, hc, rfl⟩ := List.mem_map.1 hi
      exact (inner.inside c hc).index_lt
    have hbehind (i : Nat) (hi : i ∈ (Tree.forestNodes ns).map Tree.index) : n.index < i := by
      obtain ⟨c, hc, rfl⟩ := List.mem_map.1 hi
      exact (rest.inside c hc).le_index
    rw [Tree.forestNodes, Tree.nodes_eq, List.cons_append, List.map_cons, List.map_append,
      List.nodup_cons, List.mem_append, List.nodup_append]
    refine ⟨?_, ih₁, ih₂, fun i hi j hj => ?_⟩
    · rintro (hi | hi)
      · exact absurd (hbelow _ hi) (Nat.lt_irrefl _)
      · exact absurd (hbehind _ hi) (Nat.lt_irrefl _)
    · exact Nat.ne_of_lt (Nat.lt_trans (hbelow i hi) (hbehind j hj))

/-- In preorder the nodes start one after another. -/
lemma pairwise_pos_le (h : Laid arena a ns b) :
    (Tree.forestNodes ns).Pairwise fun c d => c.pos ≤ d.pos := by
  induction h with
  | nil => exact .nil
  | @cons a b n ns _ _ inner rest ih₁ ih₂ =>
    rw [Tree.forestNodes, Tree.nodes_eq, List.cons_append]
    refine .cons (fun d hd => ?_) (List.pairwise_append.2 ⟨ih₁, ih₂, fun c hc d hd => ?_⟩)
    · rcases List.mem_append.1 hd with hd | hd
      · exact (inner.inside d hd).le_pos
      · exact Nat.le_trans inner.le.1 (rest.inside d hd).le_pos
    · have hc := inner.inside c hc
      exact Nat.le_trans hc.pos_le_stop (Nat.le_trans hc.stop_le (rest.inside d hd).le_pos)

end Laid

/-- **The tree of any text is laid out over the whole of it.** -/
theorem parseSource_laid (text : Source) (variant : Variant) (remembers : Bool) :
    Laid (parseSource text variant remembers).2.arena ⟨0, 0⟩
      [(parseSource text variant remembers).1]
      ⟨Text.bytes text, (parseSource text variant remembers).2.arena.size⟩ := by
  let R := runner (fuelFor (Text.bytes text)) remembers
  let s := State.ofSource text variant
  let l := (listUntil [] (reach? .statement)).run R s
  have := laysGoals_runner (fuelFor (Text.bytes text)) remembers
  have hs : s.scanner.Placed := Scanner.scan_placed (Cursor.on_front text)
  have hplace : s.place = ⟨0, 0⟩ := congrArg (Place.mk · 0) (Scanner.scan_fullStart _)
  obtain ⟨hplaced, hlaid⟩ := Lays.lays (R := R) (p := listUntil [] (reach? .statement)) s hs
  rw [hplace] at hlaid
  have hsource : l.2.scanner.source = text := by
    have halike := ((listUntil [] (reach? .statement)).extends_run R s).scanner.source
    exact halike.trans (Scanner.Reading.alike _).source
  -- the end of the text becomes a node of its own, which is no part of the tree
  let stop := Node.ofParts l.2.arena.size (.token .endOfFile) l.2.scanner.fullStart
    l.2.scanner.tokenEnd {} []
  have hstop : l.2.place ≤ ⟨Text.bytes l.2.scanner.source, (l.2.arena.push stop).size⟩ := by
    rw [Array.size_push]
    exact ⟨Nat.le_trans hplaced.fullStart_le_tokenEnd hplaced.tokenEnd_le, Nat.le_succ _⟩
  have hparts : [Part.many .statement l.1].flatMap Part.bare = nodesIn l.1 := List.append_nil _
  have hall : Laid (l.2.arena.push stop) ⟨0, 0⟩ ([Part.many .statement l.1].flatMap Part.bare)
      ⟨Text.bytes l.2.scanner.source, (l.2.arena.push stop).size⟩ := by
    rw [hparts, Array.push_eq_append]
    exact hlaid.grow.back hstop
  have hroot := Laid.wrap (a := ⟨0, 0⟩) (.form .sourceFile) {} [.many .statement l.1] hall
    (Nat.le_refl 0) (fun h => nomatch h)
  refine hroot.back ⟨?_, ?_⟩
  · exact Nat.le_of_eq (congrArg Text.bytes hsource)
  · exact Nat.le_of_eq (Array.size_push _).symm

end Grammar

/-! ### The tree of a file -/

namespace SourceFile

open Grammar

/-- The tree of a file lies in its text, and the arena and the walk tell the same of it. The part
that a node plays is known to its parent only, not to the arena. -/
structure WellFormed (file : SourceFile) : Prop where
  range : ∀ n ∈ file.root.nodes, n.pos ≤ n.stop ∧ n.stop ≤ Text.bytes file.text
  nested : ∀ n ∈ file.root.nodes, ∀ c ∈ n.children, n.pos ≤ c.pos ∧ c.stop ≤ n.stop
  ordered : ∀ n ∈ file.root.nodes, n.children.Pairwise fun c d => c.stop ≤ d.pos
  live : ∀ n ∈ file.root.nodes, file.arena.get? n.index = some (n.withRole .root)
  index_lt : ∀ n ∈ file.root.nodes, ∀ c ∈ n.children, c.index < n.index
  parent_unique : ∀ c ∈ file.root.descendants,
    ∃! n, n ∈ file.root.nodes ∧ c.index ∈ n.children.map Tree.index
  parentOf_child : ∀ n ∈ file.root.nodes, ∀ c ∈ n.children,
    file.arena.parentOf c.index = some n.index
  parentOf_root : file.arena.parentOf file.root.index = none
  walk_preorder : file.root.walk = file.root.descendants
  walk_once : (file.root.walk.map Tree.index).Nodup
  walk_root : file.root.index ∉ file.root.walk.map Tree.index
  walk_pos : file.root.walk.Pairwise fun c d => c.pos ≤ d.pos

variable {file : SourceFile}

/-- **What has been laid out over a text is well formed**, with the parents noted in the arena. -/
theorem wellFormed_of_laid
    (hlaid : Laid file.arena.nodes ⟨0, 0⟩ [file.root]
      ⟨Text.bytes file.text, file.arena.nodes.size⟩)
    (harena : file.arena = Arena.bindParents ⟨file.arena.nodes, #[]⟩ file.root) :
    file.WellFormed := by
  have hnodes : Tree.forestNodes [file.root] = file.root.nodes := List.append_nil _
  have hinside := hlaid.inside
  have hids := hlaid.nodup_index
  have hpos := hlaid.pairwise_pos_le
  rw [hnodes] at hinside hids hpos
  have hchild (n : Node) (hn : n ∈ file.root.nodes) (c : Node) (hc : c ∈ n.children) :
      n.pos ≤ c.pos ∧ c.stop ≤ n.stop ∧ c.index < n.index := by
    obtain ⟨_, _, hparts⟩ := (hinside n hn).parts
    have h := hparts.inside_of_mem hc
    exact ⟨h.le_pos, h.stop_le, h.index_lt⟩
  obtain ⟨hparentOf, hrootOf⟩ := Arena.parentOf_bindParents ⟨file.arena.nodes, #[]⟩
    (fun n hn => (hinside n hn).index_lt) hids
  rw [← harena] at hparentOf hrootOf
  have hbelow := hids
  rw [Tree.nodes_eq, List.map_cons, List.nodup_cons] at hbelow
  refine
    { range := fun n hn => ⟨(hinside n hn).pos_le_stop, (hinside n hn).stop_le⟩
      nested := fun n hn c hc => ⟨(hchild n hn c hc).1, (hchild n hn c hc).2.1⟩
      ordered := fun n hn => ?_
      live := fun n hn => (hinside n hn).live.entry
      index_lt := fun n hn c hc => (hchild n hn c hc).2.2
      parent_unique := fun c hc => ?_
      parentOf_child := hparentOf
      parentOf_root := hrootOf
      walk_preorder := Tree.walk_eq _
      walk_once := by rw [Tree.walk_eq]; exact hbelow.2
      walk_root := by rw [Tree.walk_eq]; exact hbelow.1
      walk_pos := ?_ }
  · obtain ⟨_, _, hparts⟩ := (hinside n hn).parts
    exact hparts.pairwise_stop_le
  · obtain ⟨n, hn, hc⟩ := Tree.exists_parent hc
    refine ⟨n, ⟨hn, List.mem_map_of_mem hc⟩, ?_⟩
    rintro m ⟨hm, hmc⟩
    obtain ⟨d, hd, hdc⟩ := List.mem_map.1 hmc
    have hsame := hparentOf m hm d hd
    rw [hdc, hparentOf n hn c hc] at hsame
    exact List.inj_on_of_nodup_map hids hm hn (Option.some.inj hsame).symm
  · rw [Tree.walk_eq]
    rw [Tree.nodes_eq] at hpos
    exact hpos.of_cons

lemma wellFormed_parse (name : String) (text : Source) : (parse name text).WellFormed :=
  wellFormed_of_laid (parseSource_laid text (Variant.ofFileName name) true) rfl

/-- **The tree of every file is well formed**, whatever its name and its text. -/
theorem parse_wellFormed (name : String) (text : Source) : (parse name text).WellFormed :=
  wellFormed_parse name text

end SourceFile

end EstreeLint
