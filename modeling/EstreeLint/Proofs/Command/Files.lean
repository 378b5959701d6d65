import EstreeLint.Command.FileTree
import EstreeLint.Proofs.Except
import EstreeLint.Proofs.Text.Split
import Mathlib.Data.List.TakeWhile
import Mathlib.Order.Compare

/-!
Paths by their components, and the files that are collected for them.

The order of paths is the lexicographic one over an order on single components, so that it is total,
and equal in it are only the same components. What a path leads to depends on its components only,
so files with the same components need not be told apart. A directory yields the files that names
lead to from it, none of them passed over; each is found at the path that it is collected with, and
the files come in the strict order of their components.
-/

namespace EstreeLint.Command

variable {path name : List Char}

/-! ### The order -/

/-- What is sorted by a comparison of keys is in the order of the keys. -/
lemma pairwise_mergeSort_key {α β : Type} (cmp : β → β → Ordering) [Std.TransCmp cmp]
    (key : α → β) (as : List α) : (as.mergeSort fun a b => (cmp (key a) (key b)).isLE).Pairwise
      fun a b => (cmp (key a) (key b)).isLE := by
  refine List.pairwise_mergeSort (fun a b c hab hbc => ?_) (fun a b => ?_) as
  · exact Std.TransCmp.isLE_trans hab hbc
  · rw [@Std.OrientedCmp.eq_swap _ cmp _ (key b)]
    cases cmp (key a) (key b) <;> rfl

namespace Component

/-- The letters of a name by their codes. -/
def letters (c : Component) : List Nat := c.name.map Char.toNat

lemma compare_eq : Component.compare = compareLex (compareOn rank) (compareOn letters) := rfl

instance : Std.TransCmp Component.compare := by
  rw [compare_eq]
  infer_instance

lemma eq_of_rank {a b : Component} (hrank : a.rank = b.rank) (hname : a.name = b.name) :
    a = b := by
  cases a <;> cases b
  case normal.normal => exact congrArg normal hname
  all_goals first
    | rfl
    | cases hrank

instance : Std.LawfulEqCmp Component.compare where
  compare_self := Std.ReflCmp.compare_self
  eq_of_compare {a b} h := by
    rw [compare_eq, compareLex_eq_eq] at h
    have hrank := Std.LawfulEqOrd.eq_of_compare h.1
    have hletters := Std.LawfulEqOrd.eq_of_compare h.2
    exact eq_of_rank hrank ((List.map_inj_right fun _ _ => Char.toNat_inj.1).1 hletters)

end Component

namespace Path

lemma compare_eq : Path.compare = List.compareLex Component.compare := by
  funext as bs
  induction as generalizing bs with
  | nil => cases bs <;> rfl
  | cons a as ih =>
    cases bs with
    | nil => rfl
    | cons b bs =>
      rw [Path.compare, ih, List.compareLex_cons_cons]

instance : Std.TransCmp Path.compare := by
  rw [compare_eq]
  infer_instance

instance : Std.LawfulEqCmp Path.compare := by
  rw [compare_eq]
  infer_instance

/-! ### Names below a path -/

/-- A name that an entry of a directory may have. -/
structure Plain (name : List Char) : Prop where
  nonempty : name ≠ []
  whole : '/' ∉ name
  not_current : name ≠ ['.']
  not_parent : name ≠ ['.', '.']

lemma componentOf?_cases (atStart : Bool) (piece : List Char) :
    componentOf? atStart piece = none ∨ componentOf? atStart piece = some .current ∨
      componentOf? atStart piece = some .parent ∨
        piece ≠ [] ∧ piece ≠ ['.'] ∧ piece ≠ ['.', '.'] ∧
          componentOf? atStart piece = some (.normal piece) := by
  unfold componentOf?
  split
  · exact .inl rfl
  · cases atStart
    · exact .inl rfl
    · exact .inr (.inl rfl)
  · exact .inr (.inr (.inl rfl))
  · next hempty hcurrent hparent => exact .inr (.inr (.inr ⟨hempty, hcurrent, hparent, rfl⟩))

lemma componentOf?_normal (atStart : Bool) (hempty : name ≠ []) (hcurrent : name ≠ ['.'])
    (hparent : name ≠ ['.', '.']) : componentOf? atStart name = some (.normal name) := by
  unfold componentOf?
  split
  · exact absurd rfl hempty
  · exact absurd rfl hcurrent
  · exact absurd rfl hparent
  · rfl

lemma Plain.componentOf? (h : Plain name) (atStart : Bool) :
    Path.componentOf? atStart name = some (.normal name) :=
  componentOf?_normal atStart h.nonempty h.not_current h.not_parent

lemma Plain.split (h : Plain name) : Text.split (· == '/') name = [name] :=
  Text.split_eq_singleton fun _ hc => beq_eq_false_iff_ne.2 fun heq => h.whole (heq ▸ hc)

lemma components_of_split {first : List Char} {rest : List (List Char)}
    (h : Text.split (· == '/') path = first :: rest) :
    components path = (if first.isEmpty && !rest.isEmpty then some .root
      else Path.componentOf? true first).toList ++ rest.filterMap (Path.componentOf? false) := by
  rw [components, h]

lemma eq_nil_of_split (h : Text.split (· == '/') path = [[]]) : path = [] := by
  rcases Text.split_eq_nil_cons h with rfl | ⟨c, v, rfl, -, hv⟩
  · rfl
  · exact absurd hv.symm (Text.split_ne_nil _ v)

/-- **A name below a path is one more component.** -/
theorem components_join (h : Plain name) :
    components (join path name) = components path ++ [.normal name] := by
  rw [join]
  split
  · next hend =>
    have hcases : path.getLast? = some '/' ∨ path = [] := by simpa using hend
    rcases hcases with hend | rfl
    -- The last piece of the path is empty, and the name takes its place.
    · obtain ⟨u, rfl⟩ := List.getLast?_eq_some_iff.1 hend
      obtain ⟨first, rest, hsplit⟩ := Text.exists_split (· == '/') u
      have hbelow : Text.split (· == '/') (u ++ ['/'] ++ name) = first :: (rest ++ [name]) := by
        rw [List.append_assoc, List.singleton_append, Text.split_append rfl, hsplit, h.split,
          List.cons_append]
      have hpath : Text.split (· == '/') (u ++ ['/']) = first :: (rest ++ [[]]) := by
        rw [Text.split_append rfl, hsplit]
        rfl
      rw [components_of_split hbelow, components_of_split hpath]
      have hname : [name].filterMap (Path.componentOf? false) = [.normal name] := by
        rw [List.filterMap_cons, h.componentOf?]
        rfl
      simp [hname, Path.componentOf?]
    · rw [List.nil_append, components_of_split h.split, h.componentOf?]
      simp [components, Text.split, Path.componentOf?]
  · next hend =>
    rw [Bool.or_eq_true, not_or] at hend
    obtain ⟨first, rest, hsplit⟩ := Text.exists_split (· == '/') path
    have hbelow : Text.split (· == '/') (path ++ '/' :: name) = first :: (rest ++ [name]) := by
      rw [Text.split_append rfl, hsplit, h.split, List.cons_append]
    -- The path is not empty, so with one piece it does not start at the root.
    have hstart : (first.isEmpty && !(rest ++ [name]).isEmpty) =
        (first.isEmpty && !rest.isEmpty) := by
      cases first with
      | cons c first => rfl
      | nil =>
        cases rest with
        | cons piece rest => rfl
        | nil => exact absurd (List.isEmpty_iff.2 (eq_nil_of_split hsplit)) hend.2
    rw [components_of_split hbelow, components_of_split hsplit, hstart]
    simp [h.componentOf?]

lemma plain_of_mem_components (h : .normal name ∈ components path) : Plain name := by
  obtain ⟨first, rest, hsplit⟩ := Text.exists_split (· == '/') path
  have hpiece {atStart : Bool} {piece : List Char} (hmem : piece ∈ Text.split (· == '/') path)
      (hpiece : Path.componentOf? atStart piece = some (.normal name)) : Plain name := by
    rcases componentOf?_cases atStart piece with hc | hc | hc | ⟨hempty, hcurrent, hparent, hc⟩
    all_goals rw [hpiece] at hc
    · cases hc
    · cases hc
    · cases hc
    · obtain rfl := Component.normal.inj (Option.some.inj hc)
      refine ⟨hempty, fun hslash => ?_, hcurrent, hparent⟩
      have hnot := Text.not_of_mem_split hmem '/' hslash
      cases hnot
  rw [components_of_split hsplit] at h
  rcases List.mem_append.1 h with h | h
  · split at h
    · cases List.mem_singleton.1 h
    · exact hpiece (hsplit ▸ List.mem_cons_self) (Option.mem_toList.1 h)
  · obtain ⟨piece, hmem, hpiece'⟩ := List.mem_filterMap.1 h
    exact hpiece (hsplit ▸ List.mem_cons_of_mem _ hmem) hpiece'

/-! ### Extensions -/

/-- The extension of a name is what stands behind its last dot, if something stands before it. -/
theorem extensionOf?_eq_some_iff {ending : List Char} : extensionOf? name = some ending ↔
    '.' ∉ ending ∧ ∃ stem, stem ≠ [] ∧ name = stem ++ '.' :: ending := by
  constructor
  · intro h
    obtain ⟨hlength, h⟩ := Option.ite_none_right_eq_some.1 h
    have hcut := List.takeWhile_append_dropWhile (p := (· != '.')) (l := name.reverse)
    obtain rfl := Option.some.inj h
    refine ⟨fun hdot => ?_, ?_⟩
    · have hnot := List.mem_takeWhile_imp (List.mem_reverse.1 hdot)
      cases hnot
    · cases hdrop : name.reverse.dropWhile (· != '.') with
      | nil =>
        rw [hdrop, List.append_nil] at hcut
        rw [hcut, List.reverse_reverse] at hlength
        omega
      | cons c stem =>
        have hc : (c != '.') = false := by
          have hnot := List.head?_dropWhile_not (· != '.') name.reverse
          simpa [hdrop] using hnot
        rw [hdrop, bne_eq_false_iff_eq.1 hc] at hcut
        have hname := congrArg List.reverse hcut
        rw [List.reverse_append, List.reverse_cons, List.reverse_reverse,
          List.append_assoc] at hname
        refine ⟨stem.reverse, fun hstem => ?_, hname.symm⟩
        have hcount := congrArg List.length hname
        rw [hstem, List.length_append, List.length_append] at hcount
        simp only [List.length_nil, List.length_singleton] at hcount
        omega
  · rintro ⟨hdot, stem, hstem, rfl⟩
    have hlength := List.length_pos_iff.2 hstem
    rw [extensionOf?, Text.takeWhile_reverse hdot, List.reverse_reverse]
    exact if_pos (by simp only [List.length_append, List.length_cons]; omega)

/-- What is linted below a path is decided by the name alone. -/
theorem isLintable_join (h : Plain name) : isLintable (join path name) = true ↔
    ∃ ending, extensionOf? name = some ending ∧ String.ofList ending ∈ lintableExtensions := by
  have hname : fileName? (join path name) = some name := by
    rw [fileName?, components_join h, List.getLast?_concat]
  rw [isLintable, extension?, hname, Option.bind_some, Option.any_eq_true]
  simp only [List.contains_iff_mem]

end Path

namespace FileTree

open EstreeLint.Command.Path (Plain components compare)

variable {above : List FileTree} {here root t u : FileTree} {path : List Char}
  {ts : List FileTree} {names : List (List Char)} {content : String}

/-! ### What a path leads to -/

/-- Where pieces of a path lead from an entry, with the directories above it, the nearest first. -/
def place (above : List FileTree) (here : FileTree) :
    List (List Char) → Option (List FileTree × FileTree)
  | [] => some (above, here)
  | piece :: rest =>
    if !here.isDirectory then none
    else if piece.isEmpty || piece == ['.'] then place above here rest
    else if piece == ['.', '.'] then
      match above with
      | [] => none
      | up :: above => place above up rest
    else
      match here.children.find? (·.label.name == piece) with
      | some t => place (here :: above) t rest
      | none => none

lemma follow_append (above : List FileTree) (here : FileTree) (ps qs : List (List Char)) :
    follow above here (ps ++ qs) = (place above here ps).bind fun s => follow s.1 s.2 qs := by
  induction ps generalizing above here with
  | nil => rfl
  | cons piece ps ih =>
    rw [List.cons_append, follow.eq_def, place.eq_def]
    dsimp only
    split_ifs
    · rfl
    · exact ih above here
    · cases above with
      | nil => rfl
      | cons up above => exact ih above up
    · cases here.children.find? (·.label.name == piece) with
      | none => rfl
      | some t => exact ih (here :: above) t

/-- Where components lead from an entry. -/
def trace (above : List FileTree) (here : FileTree) : List Component → Option FileTree
  | [] => some here
  | .root :: _ => none
  | .current :: cs => trace above here cs
  | .parent :: cs =>
    match above with
    | [] => none
    | up :: above => trace above up cs
  | .normal name :: cs =>
    match here.children.find? (·.label.name == name) with
    | some t => trace (here :: above) t cs
    | none => none

lemma trace_of_follow {pieces : List (List Char)} (h : follow above here pieces = some t) :
    trace above here (pieces.filterMap (Path.componentOf? false)) = some t := by
  induction pieces generalizing above here with
  | nil => exact h
  | cons piece pieces ih =>
    rw [follow.eq_def] at h
    dsimp only at h
    split_ifs at h with hdir hstay hup
    · have hnone : Path.componentOf? false piece = none := by
        have hcases : piece = [] ∨ piece = ['.'] := by simpa using hstay
        rcases hcases with rfl | rfl <;> rfl
      rw [List.filterMap_cons_none hnone]
      exact ih h
    · obtain rfl : piece = ['.', '.'] := by simpa using hup
      have hparent : Path.componentOf? false ['.', '.'] = some .parent := rfl
      rw [List.filterMap_cons_some hparent]
      cases above with
      | nil => cases h
      | cons up above => exact ih h
    · have hstay' : piece ≠ [] ∧ piece ≠ ['.'] := by simpa using hstay
      have hup' : piece ≠ ['.', '.'] := by simpa using hup
      have hsome := Path.componentOf?_normal false hstay'.1 hstay'.2 hup'
      rw [List.filterMap_cons_some hsome, trace]
      cases hfind : here.children.find? (·.label.name == piece) with
      | none =>
        rw [hfind] at h
        cases h
      | some u =>
        rw [hfind] at h
        exact ih h

lemma find?_eq_some_iff : find? root path = some t ↔ path ≠ [] ∧ path.head? ≠ some '/' ∧
    follow [] root (Text.split (· == '/') path) = some t := by
  rw [find?, Option.ite_none_left_eq_some]
  simp [and_assoc]

lemma trace_of_find? (h : find? root path = some t) : trace [] root (components path) = some t := by
  obtain ⟨hne, hhead, h⟩ := find?_eq_some_iff.1 h
  obtain ⟨first, rest, hsplit⟩ := Text.exists_split (· == '/') path
  have hfirst : first ≠ [] := by
    rintro rfl
    rcases Text.split_eq_nil_cons hsplit with rfl | ⟨c, v, rfl, hc, -⟩
    · exact hne rfl
    · exact hhead (congrArg some (beq_iff_eq.1 hc))
  have htrace := trace_of_follow h
  rw [Path.components_of_split hsplit, if_neg (by simp [hfirst])]
  rw [hsplit] at htrace
  -- A dot at the start is a component, though it leads nowhere else.
  by_cases hdot : first = ['.']
  · subst hdot
    exact htrace
  · have hsame : Path.componentOf? true first = Path.componentOf? false first := by
      unfold Path.componentOf?
      split <;> trivial
    rw [hsame]
    cases hc : Path.componentOf? false first with
    | none =>
      rw [List.filterMap_cons_none hc] at htrace
      exact htrace
    | some c =>
      rw [List.filterMap_cons_some hc] at htrace
      exact htrace

/-- **Paths with the same components do not lead to different entries.** -/
theorem find?_unique {path' : List Char} (h : find? root path = some t)
    (h' : find? root path' = some u) (heq : components path = components path') : t = u := by
  have htrace := trace_of_find? h
  rw [heq, trace_of_find? h'] at htrace
  exact (Option.some.inj htrace).symm

/-! ### Trees whose entries can be told apart -/

/-- The entries of every directory have names of their own. -/
inductive WellNamed : FileTree → Prop
  | node {e : Entry} {ts : List FileTree} (nodup : (ts.map (·.label.name)).Nodup)
      (plain : ∀ t ∈ ts, Plain t.label.name) (below : ∀ t ∈ ts, WellNamed t) :
      WellNamed (.node e ts)

lemma WellNamed.of_mem (h : WellNamed t) (hu : u ∈ t.children) : WellNamed u := by
  obtain ⟨-, -, hbelow⟩ := h
  exact hbelow u hu

lemma find?_of_nodup (h : (ts.map (·.label.name)).Nodup) (ht : t ∈ ts) :
    ts.find? (·.label.name == t.label.name) = some t := by
  induction ts with
  | nil => cases ht
  | cons u ts ih =>
    rw [List.map_cons, List.nodup_cons] at h
    rcases List.mem_cons.1 ht with rfl | ht
    · exact List.find?_cons_of_pos (beq_self_eq_true _)
    · have hne : u.label.name ≠ t.label.name := fun heq => h.1 (heq ▸ List.mem_map_of_mem ht)
      rw [List.find?_cons_of_neg (by simpa using hne), ih h.2 ht]

/-! ### The tree of some files -/

variable {e : Entry}

lemma wellNamed_leaf (e : Entry) : WellNamed (.node e []) := .node .nil (by simp) (by simp)

lemma WellNamed.map {g : FileTree → FileTree} (h : WellNamed (.node e ts))
    (hg : ∀ t ∈ ts, (g t).label.name = t.label.name ∧ WellNamed (g t)) :
    WellNamed (.node e (ts.map g)) := by
  obtain ⟨hnodup, hplain, -⟩ := h
  refine .node ?_ (List.forall_mem_map.2 fun t ht => ?_) (List.forall_mem_map.2 fun t ht => ?_)
  · have hnames : (ts.map g).map (·.label.name) = ts.map (·.label.name) := by
      rw [List.map_map]
      exact List.map_congr_left fun t ht => (hg t ht).1
    rwa [hnames]
  · rw [(hg t ht).1]
    exact hplain t ht
  · exact (hg t ht).2

lemma WellNamed.concat (h : WellNamed (.node e ts)) (hplain : Plain t.label.name)
    (hfresh : t.label.name ∉ ts.map (·.label.name)) (ht : WellNamed t) :
    WellNamed (.node e (ts ++ [t])) := by
  obtain ⟨hnodup, hplains, hbelow⟩ := h
  refine .node ?_ (List.forall_mem_append.2 ⟨hplains, by simpa using hplain⟩)
    (List.forall_mem_append.2 ⟨hbelow, by simpa using ht⟩)
  rw [List.map_append, List.map_singleton]
  refine List.nodup_append.2 ⟨hnodup, by simp, fun n hn m hm => ?_⟩
  rintro rfl
  exact hfresh (List.mem_singleton.1 hm ▸ hn)

lemma wellNamed_insert {added : Option String} {names : List (List Char)}
    (hnames : ∀ n ∈ names, Plain n) (h : WellNamed (.node e ts)) :
    WellNamed (.node e (insert added names ts)) := by
  induction names generalizing e ts with
  | nil =>
    rw [insert]
    exact h
  | cons name names ih =>
    obtain ⟨hname, hnames⟩ := List.forall_mem_cons.1 hnames
    rw [insert]
    split
    · refine h.map fun t ht => ?_
      have hwell : WellNamed t := h.of_mem ht
      split_ifs with hother hlast
      · exact ⟨rfl, hwell⟩
      · cases added with
        | none => exact ⟨rfl, hwell⟩
        | some content =>
          have hsame : t.label.name = name := by simpa using hother
          exact ⟨hsame.symm, wellNamed_leaf _⟩
      · obtain ⟨e', us⟩ := t
        exact ⟨rfl, ih hnames hwell⟩
    · next hnew =>
      have hfresh : name ∉ ts.map (·.label.name) := by simpa using hnew
      split
      · exact h.concat hname hfresh (wellNamed_leaf _)
      · exact h.concat hname hfresh (ih hnames (wellNamed_leaf _))

lemma plain_places {here : List (List Char)} {cs : List Component} (hhere : ∀ n ∈ here, Plain n)
    (hcs : ∀ n, .normal n ∈ cs → Plain n) : ∀ p ∈ Path.places here cs, ∀ n ∈ p, Plain n := by
  induction cs generalizing here with
  | nil => simp [Path.places]
  | cons c cs ih =>
    have hrest : ∀ n, .normal n ∈ cs → Plain n := fun n hn => hcs n (.tail _ hn)
    cases c with
    | root => exact List.forall_mem_cons.2 ⟨by simp, ih (by simp) hrest⟩
    | current => exact List.forall_mem_cons.2 ⟨hhere, ih hhere hrest⟩
    | parent =>
      have hup : ∀ n ∈ here.dropLast, Plain n := fun n hn => hhere n (List.dropLast_subset _ hn)
      exact List.forall_mem_cons.2 ⟨hup, ih hup hrest⟩
    | normal name =>
      have hdown : ∀ n ∈ here ++ [name], Plain n :=
        List.forall_mem_append.2 ⟨hhere, by simpa using hcs name List.mem_cons_self⟩
      exact List.forall_mem_cons.2 ⟨hdown, ih hdown hrest⟩

lemma wellNamed_write {path : List Char} (h : WellNamed (.node e ts)) (content : String) :
    WellNamed (.node e (write ts path content)) := by
  have hplaces : ∀ p ∈ Path.places [] (components path), ∀ n ∈ p, Plain n :=
    plain_places (by simp) fun _ hn => Path.plain_of_mem_components hn
  have hopened : WellNamed (.node e ((Path.places [] (components path)).dropLast.foldl
      (fun ts place => insert none place ts) ts)) :=
    List.foldlRecOn (motive := fun us => WellNamed (.node e us)) _ _ h fun us hus place hplace =>
      wellNamed_insert (hplaces place (List.dropLast_subset _ hplace)) hus
  refine wellNamed_insert (fun n hn => ?_) hopened
  rw [List.getLastD_eq_getLast?] at hn
  cases hlast : (Path.places [] (components path)).getLast? with
  | none =>
    rw [hlast] at hn
    cases hn
  | some place =>
    rw [hlast] at hn
    exact hplaces place (List.mem_of_getLast? hlast) n hn

/-- **In the tree of some files, the entries of every directory can be told apart.** -/
theorem wellNamed_ofFiles (files : List (String × String)) : WellNamed (ofFiles files) :=
  List.foldlRecOn (motive := fun ts => WellNamed (directory [] ts)) files _ (wellNamed_leaf _)
    fun _ h f _ => wellNamed_write h f.2

/-! ### Where an entry is found -/

lemma wellNamed_of_follow {ps : List (List Char)} (habove : ∀ a ∈ above, WellNamed a)
    (hhere : WellNamed here) (h : follow above here ps = some t) : WellNamed t := by
  induction ps generalizing above here with
  | nil => exact Option.some.inj h ▸ hhere
  | cons piece ps ih =>
    rw [follow.eq_def] at h
    dsimp only at h
    split_ifs at h
    · exact ih habove hhere h
    · cases above with
      | nil => cases h
      | cons up above =>
        obtain ⟨hup, habove⟩ := List.forall_mem_cons.1 habove
        exact ih habove hup h
    · cases hfind : here.children.find? (·.label.name == piece) with
      | none =>
        rw [hfind] at h
        cases h
      | some u =>
        rw [hfind] at h
        exact ih (List.forall_mem_cons.2 ⟨hhere, habove⟩)
          (hhere.of_mem (List.mem_of_find?_eq_some hfind)) h

lemma place_of_follow {ps : List (List Char)} (h : follow above here ps = some t) :
    ∃ above', place above here ps = some (above', t) := by
  rw [← List.append_nil ps, follow_append, Option.bind_eq_some_iff] at h
  obtain ⟨⟨above', t'⟩, hplace, h⟩ := h
  obtain rfl := Option.some.inj h
  exact ⟨above', hplace⟩

lemma follow_name {name : List Char} (hname : Plain name) (hdir : here.isDirectory = true)
    (h : here.children.find? (·.label.name == name) = some t) :
    follow above here [name] = some t := by
  rw [follow.eq_def]
  dsimp only
  rw [hdir, if_neg (by simp), if_neg (by simp [hname.nonempty, hname.not_current]),
    if_neg (by simp [hname.not_parent]), h]
  rfl

lemma eq_of_follow_empty (h : follow above here [[]] = some t) : here = t := by
  rw [follow.eq_def] at h
  dsimp only at h
  split at h
  · cases h
  · exact Option.some.inj h

/-- An entry of a directory is found by its name below the path of the directory. -/
lemma find?_join {name : List Char} (hname : Plain name) (h : find? root path = some u)
    (hdir : u.isDirectory = true) (hentry : u.children.find? (·.label.name == name) = some t) :
    find? root (Path.join path name) = some t := by
  obtain ⟨hne, hhead, h⟩ := find?_eq_some_iff.1 h
  have hfind {more : List Char}
      (hfollow : follow [] root (Text.split (· == '/') (path ++ more)) = some t) :
      find? root (path ++ more) = some t := by
    refine find?_eq_some_iff.2 ⟨by simp [hne], ?_, hfollow⟩
    rwa [List.head?_append, List.head?_eq_some_head hne, Option.some_or,
      ← List.head?_eq_some_head hne]
  rw [Path.join]
  split
  · next hend =>
    have hslash : path.getLast? = some '/' := by simpa [hne] using hend
    obtain ⟨v, rfl⟩ := List.getLast?_eq_some_iff.1 hslash
    rw [Text.split_append rfl, follow_append, Option.bind_eq_some_iff] at h
    obtain ⟨⟨above', d⟩, hplace, h⟩ := h
    obtain rfl := eq_of_follow_empty h
    refine hfind ?_
    rw [List.append_assoc, List.singleton_append, Text.split_append rfl, hname.split,
      follow_append, hplace, Option.bind_some]
    exact follow_name hname hdir hentry
  · obtain ⟨above', hplace⟩ := place_of_follow h
    refine hfind ?_
    rw [Text.split_append rfl, hname.split, follow_append, hplace, Option.bind_some]
    exact follow_name hname hdir hentry

/-! ### The files below a directory -/

/-- Names that lead from the entries of a directory to a file, with none passed over. -/
inductive Leads : List FileTree → List (List Char) → String → Prop
  | file {ts : List FileTree} {t : FileTree} {content : String} : t ∈ ts →
      isSkipped t.label.name = false → t.label.content = some content →
      Leads ts [t.label.name] content
  | directory {ts : List FileTree} {t : FileTree} {names : List (List Char)} {content : String} :
      t ∈ ts → isSkipped t.label.name = false → t.label.content = none →
      Leads t.children names content → Leads ts (t.label.name :: names) content

lemma lintable_of_file (h : t.label.content = some content) :
    lintable path t = if Path.isLintable path then [(path, content)] else [] := by
  obtain ⟨e, ts⟩ := t
  rw [Tree.label_node] at h
  rw [lintable, h]

lemma lintable_of_directory (h : t.label.content = none) :
    lintable path t = lintableIn path t.children := by
  obtain ⟨e, ts⟩ := t
  rw [Tree.label_node] at h
  rw [lintable, h]
  rfl

lemma mem_lintableIn {f : List Char × String} : f ∈ lintableIn path ts ↔
    ∃ t ∈ ts, isSkipped t.label.name = false ∧ f ∈ lintable (Path.join path t.label.name) t := by
  induction ts with
  | nil => simp [lintableIn]
  | cons t ts ih =>
    rw [lintableIn, List.mem_append, ih, List.exists_mem_cons_iff]
    refine or_congr_left ?_
    cases isSkipped t.label.name <;> simp

/-- **The files of a directory** are those that names lead to and that are linted, each at the path
that its names make. -/
theorem mem_lintableIn_iff {p : List Char} : (p, content) ∈ lintableIn path ts ↔
    ∃ names, Leads ts names content ∧ p = names.foldl Path.join path ∧
      Path.isLintable p = true := by
  constructor
  -- A directory is lower than the one that it stands in.
  · intro h
    induction hheight : Tree.forestHeight ts using Nat.strongRecOn generalizing ts path with
    | ind n ih =>
    obtain ⟨t, ht, hkept, h⟩ := mem_lintableIn.1 h
    cases hcontent : t.label.content with
    | some c =>
      rw [lintable_of_file hcontent] at h
      split at h
      · next hlintable =>
        obtain ⟨rfl, rfl⟩ := Prod.mk.inj (List.mem_singleton.1 h)
        exact ⟨_, .file ht hkept hcontent, rfl, hlintable⟩
      · cases h
    | none =>
      rw [lintable_of_directory hcontent] at h
      have hlower : Tree.forestHeight t.children < n := by
        have hle := Tree.height_le_forestHeight ht
        obtain ⟨e, us⟩ := t
        rw [Tree.height] at hle
        exact hheight ▸ hle
      obtain ⟨names, hleads, hp, hlintable⟩ := ih _ hlower h rfl
      exact ⟨_, .directory ht hkept hcontent hleads, hp, hlintable⟩
  · rintro ⟨names, hleads, hp, hlintable⟩
    induction hleads generalizing path with
    | @file ts t content ht hkept hcontent =>
      obtain rfl : p = Path.join path t.label.name := hp
      refine mem_lintableIn.2 ⟨t, ht, hkept, ?_⟩
      rw [lintable_of_file hcontent, if_pos hlintable]
      exact List.mem_singleton.2 rfl
    | directory ht hkept hcontent _ ih =>
      refine mem_lintableIn.2 ⟨_, ht, hkept, ?_⟩
      rw [lintable_of_directory hcontent]
      exact ih hp

/-- What names lead to is found at the path that they make. -/
lemma find?_of_leads (h : Leads ts names content) (hfind : find? root path = some u)
    (hnamed : WellNamed u) (hdir : u.isDirectory = true) (hchildren : u.children = ts) :
    ∃ t, find? root (names.foldl Path.join path) = some t ∧ t.label.content = some content := by
  induction h generalizing path u with
  | file ht _ hcontent =>
    subst hchildren
    obtain ⟨hnodup, hplain, -⟩ := hnamed
    exact ⟨_, find?_join (hplain _ ht) hfind hdir (find?_of_nodup hnodup ht), hcontent⟩
  | directory ht _ hcontent _ ih =>
    subst hchildren
    obtain ⟨hnodup, hplain, hbelow⟩ := hnamed
    exact ih (find?_join (hplain _ ht) hfind hdir (find?_of_nodup hnodup ht)) (hbelow _ ht)
      (by rw [isDirectory, hcontent]; rfl) rfl

/-- **A file that a path names or that lies below it is found at the path that it comes with.** -/
theorem find?_filesAt {f : List Char × String} (hroot : WellNamed root)
    (h : find? root path = some t) (hf : f ∈ filesAt path t) :
    ∃ u, find? root f.1 = some u ∧ u.label.content = some f.2 := by
  rw [filesAt] at hf
  cases hcontent : t.label.content with
  | some c =>
    rw [hcontent] at hf
    obtain rfl := List.mem_singleton.1 hf
    exact ⟨t, h, hcontent⟩
  | none =>
    rw [hcontent] at hf
    obtain ⟨names, hleads, hp, -⟩ := mem_lintableIn_iff.1 hf
    rw [hp]
    have hnamed : WellNamed t := wellNamed_of_follow (by simp) hroot (find?_eq_some_iff.1 h).2.2
    exact find?_of_leads hleads h hnamed (by rw [isDirectory, hcontent]; rfl) rfl

/-! ### The files that are collected -/

/-- Files with the same components are one. -/
lemma withoutRepeatsOf_subset (c : List Component) (fs : List (List Char × String)) :
    withoutRepeatsOf c fs ⊆ fs := by
  induction fs generalizing c with
  | nil => exact List.Subset.refl _
  | cons f fs ih =>
    rw [withoutRepeatsOf]
    split
    · exact List.subset_cons_of_subset _ (ih c)
    · exact List.cons_subset_cons _ (ih _)

lemma exists_withoutRepeatsOf {f : List Char × String} (c : List Component)
    {fs : List (List Char × String)} (h : f ∈ fs) : components f.1 = c ∨
      ∃ g ∈ withoutRepeatsOf c fs, components g.1 = components f.1 := by
  induction fs generalizing c with
  | nil => cases h
  | cons g fs ih =>
    rw [withoutRepeatsOf]
    split
    · next hg =>
      rcases List.mem_cons.1 h with rfl | h
      · exact .inl hg
      · exact ih c h
    · rcases List.mem_cons.1 h with rfl | h
      · exact .inr ⟨f, List.mem_cons_self, rfl⟩
      · rcases ih (components g.1) h with heq | ⟨g', hg', heq⟩
        · exact .inr ⟨g, List.mem_cons_self, heq.symm⟩
        · exact .inr ⟨g', .tail _ hg', heq⟩

lemma withoutRepeatsOf_ascending {c : List Component} {fs : List (List Char × String)}
    (hle : ∀ f ∈ fs, (compare c (components f.1)).isLE)
    (h : fs.Pairwise fun f g => (compare (components f.1) (components g.1)).isLE) :
    (∀ f ∈ withoutRepeatsOf c fs, compare c (components f.1) = .lt) ∧
      (withoutRepeatsOf c fs).Pairwise fun f g =>
        compare (components f.1) (components g.1) = .lt := by
  induction fs generalizing c with
  | nil => exact ⟨by simp [withoutRepeatsOf], .nil⟩
  | cons f fs ih =>
    obtain ⟨hf, hfs⟩ := List.pairwise_cons.1 h
    obtain ⟨hlef, hlefs⟩ := List.forall_mem_cons.1 hle
    rw [withoutRepeatsOf]
    split
    · exact ih hlefs hfs
    · next hne =>
      obtain ⟨hlt, hrest⟩ := ih hf hfs
      have hcf : compare c (components f.1) = .lt := by
        rcases Ordering.isLE_iff_eq_lt_or_eq_eq.1 hlef with hlt | heq
        · exact hlt
        · exact absurd (Std.LawfulEqCmp.eq_of_compare heq).symm hne
      exact ⟨List.forall_mem_cons.2 ⟨hcf, fun g hg => Std.TransCmp.lt_trans hcf (hlt g hg)⟩,
        List.pairwise_cons.2 ⟨hlt, hrest⟩⟩

lemma withoutRepeats_subset (fs : List (List Char × String)) : withoutRepeats fs ⊆ fs := by
  cases fs with
  | nil => exact List.Subset.refl _
  | cons f fs => exact List.cons_subset_cons _ (withoutRepeatsOf_subset _ fs)

lemma exists_withoutRepeats {f : List Char × String} {fs : List (List Char × String)}
    (h : f ∈ fs) : ∃ g ∈ withoutRepeats fs, components g.1 = components f.1 := by
  cases fs with
  | nil => cases h
  | cons g fs =>
    rcases List.mem_cons.1 h with rfl | h
    · exact ⟨f, List.mem_cons_self, rfl⟩
    · rcases exists_withoutRepeatsOf (components g.1) h with heq | ⟨g', hg', heq⟩
      · exact ⟨g, List.mem_cons_self, heq.symm⟩
      · exact ⟨g', .tail _ hg', heq⟩

lemma withoutRepeats_ascending {fs : List (List Char × String)}
    (h : fs.Pairwise fun f g => (compare (components f.1) (components g.1)).isLE) :
    (withoutRepeats fs).Pairwise fun f g => compare (components f.1) (components g.1) = .lt := by
  cases fs with
  | nil => exact .nil
  | cons f fs =>
    obtain ⟨hf, hfs⟩ := List.pairwise_cons.1 h
    exact List.pairwise_cons.2 (withoutRepeatsOf_ascending hf hfs)

/-- The files that are collected for paths: each of them once, in the order of the components. -/
structure Collected (lookup : List Char → Option FileTree) (paths : List (List Char))
    (files : List (List Char × String)) : Prop where
  known : ∀ p ∈ paths, (lookup p).isSome
  sound : ∀ f ∈ files, ∃ p ∈ paths, ∃ t, lookup p = some t ∧ f ∈ filesAt p t
  complete : ∀ p ∈ paths, ∀ t, lookup p = some t → ∀ f ∈ filesAt p t,
    ∃ g ∈ files, components g.1 = components f.1
  ascending : files.Pairwise fun f g => compare (components f.1) (components g.1) = .lt

variable {lookup : List Char → Option FileTree} {paths : List (List Char)}
  {files : List (List Char × String)}

/-- The files for one path. -/
def gather (lookup : List Char → Option FileTree) (path : List Char) :
    Except String (List (List Char × String)) :=
  match lookup path with
  | some t => .ok (filesAt path t)
  | none => .error ("no such file or directory: " ++ String.ofList path)

lemma gather_eq_ok_iff : gather lookup path = .ok files ↔
    ∃ t, lookup path = some t ∧ filesAt path t = files := by
  rw [gather]
  cases lookup path <;> simp

lemma exists_gather_eq_ok : (∃ fs, gather lookup path = .ok fs) ↔ (lookup path).isSome := by
  rw [gather]
  cases lookup path <;> simp

lemma gather_eq_error_iff {e : String} : gather lookup path = .error e ↔
    lookup path = none ∧ e = "no such file or directory: " ++ String.ofList path := by
  rw [gather]
  cases lookup path <;> simp [eq_comm]

lemma collect_eq (lookup : List Char → Option FileTree) (paths : List (List Char)) :
    collect lookup paths = (fun found => withoutRepeats <| found.flatten.mergeSort fun f g =>
      (compare (components f.1) (components g.1)).isLE) <$> paths.mapM (gather lookup) := rfl

/-- **What is collected** when every path leads somewhere. -/
theorem collect_ok (h : collect lookup paths = .ok files) : Collected lookup paths files := by
  rw [collect_eq, map_eq_ok_iff] at h
  obtain ⟨found, hfound, hfiles⟩ := h
  have hmem : ∀ f, f ∈ found.flatten ↔ ∃ p ∈ paths, ∃ t, lookup p = some t ∧ f ∈ filesAt p t := by
    intro f
    rw [List.mem_flatten]
    constructor
    · rintro ⟨fs, hfs, hf⟩
      obtain ⟨p, hp, hgather⟩ := (mem_of_mapM_eq_ok hfound).1 hfs
      obtain ⟨t, ht, rfl⟩ := gather_eq_ok_iff.1 hgather
      exact ⟨p, hp, t, ht, hf⟩
    · rintro ⟨p, hp, t, ht, hf⟩
      exact ⟨_, (mem_of_mapM_eq_ok hfound).2 ⟨p, hp, gather_eq_ok_iff.2 ⟨t, ht, rfl⟩⟩, hf⟩
  have hknown : ∀ p ∈ paths, (lookup p).isSome := by
    exact fun p hp => exists_gather_eq_ok.1 (exists_mapM_eq_ok_iff.1 ⟨_, hfound⟩ p hp)
  have hsorted := pairwise_mergeSort_key compare (fun f => components f.1) found.flatten
  have hperm := List.mergeSort_perm found.flatten fun f g =>
    (compare (components f.1) (components g.1)).isLE
  subst hfiles
  exact {
    known := hknown
    sound := fun f hf => (hmem f).1 (hperm.subset (withoutRepeats_subset _ hf))
    complete := fun p hp t ht f hf =>
      exists_withoutRepeats (hperm.mem_iff.2 ((hmem f).2 ⟨p, hp, t, ht, hf⟩))
    ascending := withoutRepeats_ascending hsorted }

/-- **What is collected from a tree is found in it**: every file at its path, with its text. -/
theorem collect_found (hroot : WellNamed root) (h : collect (find? root) paths = .ok files) :
    ∀ f ∈ files, ∃ u, find? root f.1 = some u ∧ u.label.content = some f.2 := by
  intro f hf
  obtain ⟨p, -, t, ht, hmem⟩ := (collect_ok h).sound f hf
  exact find?_filesAt hroot ht hmem

/-- **The first path that leads nowhere is the error.** -/
theorem collect_error_iff {e : String} : collect lookup paths = .error e ↔
    ∃ done p rest, paths = done ++ p :: rest ∧ (∀ q ∈ done, (lookup q).isSome) ∧
      lookup p = none ∧ e = "no such file or directory: " ++ String.ofList p := by
  rw [collect_eq, map_eq_error_iff, mapM_eq_error_iff]
  simp only [exists_gather_eq_ok, gather_eq_error_iff]

end FileTree

end EstreeLint.Command
