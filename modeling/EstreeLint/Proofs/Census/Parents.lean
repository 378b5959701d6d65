import EstreeLint.Proofs.Census.Statements
import Mathlib.Data.List.Nodup

/-!
The registry of a converted file and the table of parents, against its tree.

The numbers of a tree are taken once each, so a table by numbers says of every node what its place
in the tree says: its parent, and from there the way up to the root.
-/

namespace EstreeLint

namespace Tree

variable {α : Type} {t u p m : Tree α} {above above' : List (Tree α)}

/-! ### Paths -/

lemma paths_eq (above : List (Tree α)) (t : Tree α) :
    t.paths above = (above, t) :: forestPaths (t :: above) t.children := by
  cases t
  rfl

mutual

lemma map_snd_paths (above : List (Tree α)) : ∀ t : Tree α, (t.paths above).map Prod.snd = t.nodes
  | .node a ts => by rw [paths, nodes, List.map_cons, map_snd_forestPaths]

lemma map_snd_forestPaths (above : List (Tree α)) :
    ∀ ts : List (Tree α), (forestPaths above ts).map Prod.snd = forestNodes ts
  | [] => rfl
  | t :: ts => by
    rw [forestPaths, forestNodes, List.map_append, map_snd_paths, map_snd_forestPaths]

end

lemma mem_forestPaths {ts : List (Tree α)} {x : List (Tree α) × Tree α} :
    x ∈ forestPaths above ts ↔ ∃ t ∈ ts, x ∈ t.paths above := by
  induction ts with
  | nil => simp [forestPaths]
  | cons t ts ih => simp [forestPaths, ih]

/-- Every node has a path. -/
lemma exists_path (above : List (Tree α)) (h : u ∈ t.nodes) :
    ∃ above', (above', u) ∈ t.paths above := by
  rw [← map_snd_paths above t, List.mem_map] at h
  obtain ⟨⟨above', _⟩, hmem, rfl⟩ := h
  exact ⟨above', hmem⟩

/-- The path to a child goes through its parent. -/
lemma path_child (h : (above', p) ∈ t.paths above) (hm : m ∈ p.children) :
    (p :: above', m) ∈ t.paths above := by
  generalize hk : t.height = k
  induction k using Nat.strongRecOn generalizing t above with
  | ind k ih =>
    rw [paths_eq, List.mem_cons] at h ⊢
    rcases h with h | h
    · obtain ⟨rfl, rfl⟩ := Prod.mk.inj h
      refine .inr (mem_forestPaths.2 ⟨m, hm, ?_⟩)
      rw [paths_eq]
      exact List.mem_cons_self ..
    · obtain ⟨c, hc, h⟩ := mem_forestPaths.1 h
      have hlt := height_lt_of_mem hc
      exact .inr (mem_forestPaths.2 ⟨c, hc, ih c.height (by omega) h rfl⟩)

/-- What a path has at its top: nothing for the tree itself, and else the parent, with its own
path. -/
lemma path_cases (h : (above', u) ∈ t.paths above) :
    (above' = above ∧ u = t) ∨
      ∃ p rest, above' = p :: rest ∧ u ∈ p.children ∧ (rest, p) ∈ t.paths above := by
  generalize hk : t.height = k
  induction k using Nat.strongRecOn generalizing t above with
  | ind k ih =>
    rw [paths_eq, List.mem_cons] at h
    rcases h with h | h
    · exact .inl (Prod.mk.inj h)
    · obtain ⟨c, hc, h⟩ := mem_forestPaths.1 h
      have hlt := height_lt_of_mem hc
      refine .inr ?_
      have hfront : (above, t) ∈ t.paths above := by
        rw [paths_eq]
        exact List.mem_cons_self ..
      rcases ih c.height (by omega) h rfl with ⟨rfl, rfl⟩ | ⟨p, rest, rfl, hp, hrest⟩
      · exact ⟨t, above, rfl, hc, hfront⟩
      · refine ⟨p, rest, rfl, hp, ?_⟩
        rw [paths_eq]
        exact List.mem_cons_of_mem _ (mem_forestPaths.2 ⟨c, hc, hrest⟩)

/-- In a tree without repetitions a node is a child once. -/
lemma parent_unique {q : Tree α} (h : t.nodes.Nodup) (hp : p ∈ t.nodes) (hq : q ∈ t.nodes)
    (hmp : m ∈ p.children) (hmq : m ∈ q.children) : p = q := by
  obtain ⟨above, hp⟩ := exists_path [] hp
  obtain ⟨above', hq⟩ := exists_path [] hq
  rw [← map_snd_paths [] t] at h
  have heq := List.inj_on_of_nodup_map h (path_child hp hmp) (path_child hq hmq) rfl
  exact (List.cons.inj (Prod.mk.inj heq).1).1

lemma mem_nodes_of_path (h : (above', u) ∈ t.paths above) : u ∈ t.nodes := by
  rw [← map_snd_paths above t]
  exact List.mem_map.2 ⟨_, h, rfl⟩

end Tree

namespace Estree

/-! ### The table of parents -/

lemma lookup_of_mem {l : List (Nat × Nat)} {k v : Nat} (h : (l.map Prod.fst).Nodup)
    (hmem : (k, v) ∈ l) : l.lookup k = some v := by
  obtain ⟨l₁, l₂, rfl⟩ := List.append_of_mem hmem
  refine List.lookup_eq_some_iff.2 ⟨l₁, l₂, rfl, fun p hp => ?_⟩
  rw [List.map_append, List.map_cons] at h
  have hne : k ∉ l₁.map Prod.fst := fun hk => (List.nodup_append.1 h).2.2 k hk k (by simp) rfl
  simpa using fun he : k = p.1 => hne (he ▸ List.mem_map_of_mem hp)

/-- The way up a table of parents from a number: its parent, the parent of that, and so on, up to a
number that has none. -/
inductive Climbs (table : List (Nat × Nat)) : Nat → List Nat → Prop
  | top {i : Nat} (h : table.lookup i = none) : Climbs table i []
  | up {i p : Nat} {rest : List Nat} (h : table.lookup i = some p) (hrest : Climbs table p rest) :
    Climbs table i (p :: rest)

section Table

variable {root : EsNode}

/-- Below the root every path goes through a parent. -/
lemma head?_of_below {x : List EsNode × EsNode}
    (h : x ∈ Tree.forestPaths [root] root.children) : ∃ p, x.1.head? = some p := by
  obtain ⟨c, -, hx⟩ := Tree.mem_forestPaths.1 h
  rcases Tree.path_cases hx with ⟨habove, -⟩ | ⟨p, rest, habove, -⟩
  · exact ⟨root, by rw [habove]; rfl⟩
  · exact ⟨p, by rw [habove]; rfl⟩

lemma parentTable_keys : (parentTable root).map Prod.fst = root.descendants.map Tree.id := by
  have hkeys (l : List (List EsNode × EsNode)) (hl : ∀ x ∈ l, ∃ p, x.1.head? = some p) :
      (l.filterMap fun x => x.1.head?.map fun p => (x.2.id, p.id)).map Prod.fst =
        (l.map Prod.snd).map Tree.id := by
    induction l with
    | nil => rfl
    | cons x l ih =>
      obtain ⟨p, hp⟩ := hl x (by simp)
      rw [List.filterMap_cons_some (b := (x.2.id, p.id)) (by rw [hp]; rfl), List.map_cons,
        List.map_cons, List.map_cons, ih fun y hy => hl y (by simp [hy])]
  rw [parentTable, Tree.paths_eq]
  exact (hkeys _ fun _ => head?_of_below).trans
    (congrArg (List.map Tree.id) (Tree.map_snd_forestPaths _ _))

variable (h : (root.nodes.map Tree.id).Nodup)

include h

/-- The table says of every node what is on top of its path. -/
lemma lookup_parentTable {above : List EsNode} {m : EsNode} (hm : (above, m) ∈ root.paths []) :
    (parentTable root).lookup m.id = above.head?.map Tree.id := by
  rw [Tree.nodes_eq, List.map_cons, List.nodup_cons, ← parentTable_keys] at h
  rcases Tree.path_cases hm with ⟨rfl, rfl⟩ | ⟨p, rest, rfl, -⟩
  · refine List.lookup_eq_none_iff.2 fun x hx => ?_
    simpa using fun he : m.id = x.1 => h.1 (he ▸ List.mem_map_of_mem hx)
  · exact lookup_of_mem h.2 (List.mem_filterMap.2 ⟨_, hm, rfl⟩)

lemma lookup_child {p m : EsNode} (hp : p ∈ root.nodes) (hm : m ∈ p.children) :
    (parentTable root).lookup m.id = some p.id := by
  obtain ⟨above, hpath⟩ := Tree.exists_path [] hp
  exact lookup_parentTable h (Tree.path_child hpath hm)

lemma lookup_root : (parentTable root).lookup root.id = none := by
  have hpath : ([], root) ∈ root.paths [] := by
    rw [Tree.paths_eq]
    exact List.mem_cons_self ..
  exact lookup_parentTable h hpath

lemma eq_of_id {m m' : EsNode} (hm : m ∈ root.nodes) (hm' : m' ∈ root.nodes)
    (hid : m.id = m'.id) : m = m' := List.inj_on_of_nodup_map h hm hm' hid

/-- From every node the way up ends at the root. -/
lemma climbs_to_root {above : List EsNode} {m : EsNode} (hm : (above, m) ∈ root.paths []) :
    Climbs (parentTable root) m.id (above.map Tree.id) ∧ (m :: above).getLast? = some root := by
  have hlookup := lookup_parentTable h hm
  induction above generalizing m with
  | nil =>
    rcases Tree.path_cases hm with ⟨-, rfl⟩ | ⟨p, rest, hrest, -⟩
    · exact ⟨.top hlookup, rfl⟩
    · cases hrest
  | cons p above ih =>
    rcases Tree.path_cases hm with ⟨hnil, -⟩ | ⟨p, rest, hrest, -, hp⟩
    · cases hnil
    · obtain ⟨rfl, rfl⟩ := List.cons.inj hrest
      obtain ⟨hclimbs, hlast⟩ := ih hp (lookup_parentTable h hp)
      exact ⟨.up hlookup hclimbs, by rwa [List.getLast?_cons_cons]⟩

end Table

/-! ### Converted files -/

lemma sitedIn_parse (name : String) (text : Source) :
    SitedIn (SourceFile.parse name text) (SourceFile.parse name text).root := by
  have hs := Grammar.parseSource_sited text (.ofFileName name) true
  rwa [← List.reverse_eq_nil_iff] at hs

/-- What the table of parents says of a tree. -/
structure ParentsFit (root : EsNode) : Prop where
  /-- Every node but the root has one parent in the tree, and the table has it. -/
  parent : ∀ m ∈ root.nodes, m ≠ root → ∃ p ∈ root.nodes, m ∈ p.children ∧
    (∀ q ∈ root.nodes, m ∈ q.children → q = p) ∧ (parentTable root).lookup m.id = some p.id
  top : (parentTable root).lookup root.id = none
  /-- The way up from every node ends at the root. -/
  ancestors : ∀ m ∈ root.nodes, ∃ above, Climbs (parentTable root) m.id above ∧
    (m.id :: above).getLast? = some root.id

lemma parentsFit {root : EsNode} (h : (root.nodes.map Tree.id).Nodup) : ParentsFit root where
  parent m hm hne := by
    obtain ⟨above, hpath⟩ := Tree.exists_path [] hm
    rcases Tree.path_cases hpath with ⟨-, rfl⟩ | ⟨p, rest, rfl, hchild, hp⟩
    · exact absurd rfl hne
    · have hp := Tree.mem_nodes_of_path hp
      refine ⟨p, hp, hchild, fun q hq hmq => eq_of_id h hq hp ?_, lookup_child h hp hchild⟩
      exact Option.some.inj ((lookup_child h hq hmq).symm.trans (lookup_child h hp hchild))
  top := lookup_root h
  ancestors m hm := by
    obtain ⟨above, hpath⟩ := Tree.exists_path [] hm
    obtain ⟨hclimbs, hlast⟩ := climbs_to_root h hpath
    refine ⟨_, hclimbs, ?_⟩
    rw [← List.map_cons (f := Tree.id), List.getLast?_map, hlast]
    rfl

/-- The registry of a conversion and the table of parents fit its tree. -/
structure FitsTree (c : Conversion) : Prop where
  distinct : (c.program.nodes.map Tree.id).Nodup
  numbered : ∀ m ∈ c.program.nodes, m.id < c.registry.size
  /-- What answers for a syntax node is in the tree: no chain or sequence that was taken up into the
  next one answers for anything. -/
  answers : ∀ native id, c.registry.convertedOf? native = some id →
    ∃ m ∈ c.program.nodes, m.id = id
  /-- Where a node in the tree comes from, there is an answer. -/
  answered : ∀ m ∈ c.program.nodes, ∀ native, c.registry.nativeOf? m.id = some native →
    ∃ id, c.registry.convertedOf? native = some id
  root : c.program.type = .program
  parents : ParentsFit c.program

lemma fitsTree_ofFile {name : String} {text : Source} {c : Conversion}
    (h : Conversion.ofFile (SourceFile.parse name text) = .ok c) : FitsTree c := by
  obtain ⟨hacc, -, htype⟩ := accounted_ofFile (sitedIn_parse name text) h
  have hnodup : (c.program.nodes.map Tree.id).Nodup := Multiset.coe_nodup.1 hacc.nodup
  exact {
    distinct := hnodup
    numbered := fun m hm => hacc.lt_size m.id (mem_ids.2 ⟨m, hm, rfl⟩)
    answers := fun native id hid => mem_ids.1 (hacc.answers native id hid)
    answered := fun m _ native hnative =>
      Option.isSome_iff_exists.1 (hacc.answered m.id native hnative)
    root := htype
    parents := parentsFit hnodup }

/-- **The registry and the table of parents of a converted file fit its tree.** -/
theorem registry_fits_tree (name : String) (text : Source) (c : Conversion)
    (h : Conversion.ofFile (SourceFile.parse name text) = .ok c) : FitsTree c :=
  fitsTree_ofFile h

/-- An exported declaration with a chain and a sequence that are taken up into the next ones, and a
property that is only named. -/
def takenUp : Source := "export const a = (b, c, d?.e.f(g), \x7b h \x7d)".toList

set_option maxRecDepth 10000 in
theorem takenUp_fits_tree :
    ∃ c, Conversion.ofFile (SourceFile.parse "a.ts" takenUp) = .ok c ∧ FitsTree c := by
  have hok : (Conversion.ofFile (SourceFile.parse "a.ts" takenUp)).isOk = true := by
    decide +kernel
  obtain ⟨c, h⟩ := Conversion.exists_of_isOk hok
  exact ⟨c, h, registry_fits_tree _ _ c h⟩

end Estree

end EstreeLint
