import EstreeLint.Proofs.Once.Files
import EstreeLint.Proofs.Precedence.Statements

/-!
Lists of expressions.

Commas nest to the left in the syntax tree, and each is converted to a list; where the list on the
left of a comma is not in parentheses it is taken up into the list of that comma. So a list in the
converted tree holds the conversions of what stands between all the commas of a nest, and every one
of them is answered for by that list.

The comma on the left of another one is converted to a list that no node of the tree is. It is kept
out of the law, and what is known of its list is told beside the law, depth by depth.
-/

namespace EstreeLint.Estree

open EstreeLint.Estree.Convert (IsComma)

/-- The comma is the left side of a comma. -/
structure IsLead (file : SourceFile) (n : Node) : Prop where
  comma : IsComma n
  above : ∃ p ∈ file.root.nodes, IsComma p ∧ p.part? .left = some n

/-- The node was converted to `e` in the field, on the way to the registry. -/
def ConvertsTo (file : SourceFile) (r : Registry) (f : Field) (n : Node) (e : EsNode) : Prop :=
  ∃ depth place s t e', place.isTarget = false ∧
    Convert.node file depth place n s = .ok (e', t) ∧ t.Before file r ∧ e = e'.inField f

/-- What stands between the commas of a nest, in the order of the source, and the commas, the
outermost first. In parentheses a comma is no longer the left side of another one. -/
inductive CommaNest : Node → List Node → List Node → Prop
  | pair {n m p : Node} (hn : IsComma n) (hm : n.part? .left = some m)
    (hp : n.part? .right = some p) (hend : ¬ IsComma m) : CommaNest n [m, p] [n]
  | more {n m p : Node} {os ls : List Node} (hn : IsComma n) (hm : n.part? .left = some m)
    (hp : n.part? .right = some p) (h : CommaNest m os ls) : CommaNest n (os ++ [p]) (n :: ls)

/-- The expressions are what stands between the commas of the nest. A list comes first only where
it is in parentheses. -/
structure Flattens (file : SourceFile) (r : Registry) (n : Node) (es : List EsNode)
    (os ls : List Node) : Prop where
  nest : CommaNest n os ls
  converted : List.Forall₂ (ConvertsTo file r .expressions) os es
  closed : ∀ e ∈ es.head?, e.type = .sequenceExpression →
    ∀ o ∈ os.head?, o.kind = .form .parenthesizedExpression

/-- The list is that of the nest, and all commas of the nest have been numbered. -/
structure ListOf (file : SourceFile) (r : Registry) (n : Node) (a : EsNode) : Prop where
  native : r.nativeOf? a.id = some n.index
  flattens : ∃ os ls, Flattens file r n a.children os ls ∧
    ∀ l ∈ ls, ∃ i, r.nativeOf? i = some l.index

variable {file : SourceFile} {r s : Registry} {a e m : EsNode} {n l p : Node}

/-! ### Nests of commas -/

lemma ConvertsTo.later {f : Field} (h : ConvertsTo file r f n e) (hrs : r.Before file s) :
    ConvertsTo file s f n e := by
  obtain ⟨depth, place, t, t', e', htarget, hrun, hbefore, he⟩ := h
  exact ⟨depth, place, t, t', e', htarget, hrun, hbefore.trans hrs, he⟩

lemma ConvertsTo.inField {f : Field} (h : ConvertsTo file r f n e) : e.inField f = e := by
  obtain ⟨_, _, _, _, ⟨l, cs⟩, -, -, -, rfl⟩ := h
  rfl

lemma ConvertsTo.field {f : Field} (h : ConvertsTo file r f n e) : e.field = f := by
  rw [← h.inField]
  cases e
  rfl

variable {es : List EsNode} {os ls : List Node}

namespace CommaNest

lemma isComma (h : CommaNest n os ls) : IsComma n := by
  cases h <;> assumption

lemma ne_nil (h : CommaNest n os ls) : os ≠ [] := by
  cases h <;> simp

/-- All commas of a nest are reached from the outermost. -/
lemma leftSpine (h : CommaNest n os ls) : ∀ l ∈ ls, LeftSpine n l := by
  induction h with
  | pair =>
    intro l hl
    obtain rfl := List.mem_singleton.1 hl
    exact .refl l
  | more hn hm _ _ ih =>
    intro l hl
    rcases List.mem_cons.1 hl with rfl | hl
    · exact .refl l
    · exact (ih l hl).up hn hm

lemma isComma_of_mem (h : CommaNest n os ls) : ∀ l ∈ ls, IsComma l := by
  induction h with
  | pair hn => exact fun l hl => List.mem_singleton.1 hl ▸ hn
  | more hn _ _ _ ih =>
    intro l hl
    rcases List.mem_cons.1 hl with rfl | hl
    · exact hn
    · exact ih l hl

/-- What stands between the commas follows one after another, and ends with the nest. -/
lemma ordered (hwell : file.WellFormed)
    (hjoins : ∀ n ∈ file.root.nodes, IsComma n → Grammar.Joins n) (h : CommaNest n os ls)
    (hn : n ∈ file.root.nodes) :
    os.Pairwise (fun o o' => o.stop ≤ o'.pos) ∧ ∀ o ∈ os, o.stop ≤ n.stop := by
  have hsides {n m p : Node} (hn : n ∈ file.root.nodes) (hcomma : IsComma n)
      (hm : n.part? .left = some m) (hp : n.part? .right = some p) :
      m.stop ≤ p.pos ∧ m.stop ≤ n.stop ∧ p.stop ≤ n.stop := by
    obtain ⟨m', hm', -, hafter⟩ := hjoins n hn hcomma
    obtain rfl := Option.some.inj (hm.symm.trans hm')
    refine ⟨?_, (hwell.nested n hn m (Below.mem_of_part? hm)).2,
      (hwell.nested n hn p (Below.mem_of_part? hp)).2⟩
    simpa using (hwell.ordered n hn).sublist (hafter p hp)
  induction h with
  | pair hcomma hm hp _ =>
    obtain ⟨hle, hmn, hpn⟩ := hsides hn hcomma hm hp
    simp [hle, hmn, hpn]
  | more hcomma hm hp _ ih =>
    obtain ⟨hle, hmn, hpn⟩ := hsides hn hcomma hm hp
    obtain ⟨hos, hwithin⟩ :=
      ih (Tree.mem_nodes_trans hn (Tree.mem_nodes_of_mem (Below.mem_of_part? hm)))
    refine ⟨List.pairwise_append.2 ⟨hos, List.pairwise_singleton .., fun o ho o' ho' => ?_⟩, ?_⟩
    · obtain rfl := List.mem_singleton.1 ho'
      exact Nat.le_trans (hwithin o ho) hle
    · exact List.forall_mem_append.2 ⟨fun o ho => Nat.le_trans (hwithin o ho) hmn,
        List.forall_mem_singleton.2 hpn⟩

end CommaNest

namespace Flattens

lemma later (h : Flattens file r n es os ls) (hrs : r.Before file s) :
    Flattens file s n es os ls :=
  { h with converted := h.converted.imp fun _ _ h => h.later hrs }

lemma pair (hn : IsComma n) (hl : n.part? .left = some l) (hp : n.part? .right = some p)
    (hend : ¬ IsComma l) (ha : ConvertsTo file r .expressions l a)
    (he : ConvertsTo file r .expressions p e)
    (hclosed : a.type = .sequenceExpression → l.kind = .form .parenthesizedExpression) :
    Flattens file r n [a, e] [l, p] [n] where
  nest := .pair hn hl hp hend
  converted := .cons ha (.cons he .nil)
  closed := by
    rintro _ ⟨⟩ ht _ ⟨⟩
    exact hclosed ht

lemma more (hn : IsComma n) (hl : n.part? .left = some l) (hp : n.part? .right = some p)
    (h : Flattens file r l es os ls) (he : ConvertsTo file r .expressions p e) :
    Flattens file r n (es ++ [e]) (os ++ [p]) (n :: ls) where
  nest := .more hn hl hp h.nest
  converted := List.rel_append h.converted (.cons he .nil)
  closed := by
    have hos := h.nest.ne_nil
    have hes : es ≠ [] := fun hes => hos (by simpa [hes] using h.converted)
    rw [List.head?_append_of_ne_nil _ hes, List.head?_append_of_ne_nil _ hos]
    exact h.closed

/-- The expressions of a list are those in its field. -/
lemma inField (h : Flattens file r n es os ls) :
    ∀ e ∈ es, e.field = .expressions ∧ e.inField .expressions = e := by
  obtain ⟨-, hconverted, -⟩ := h
  induction hconverted with
  | nil => exact fun e he => nomatch he
  | cons ha _ ih => exact List.forall_mem_cons.2 ⟨⟨ha.field, ha.inField⟩, ih⟩

end Flattens

lemma ListOf.later (h : ListOf file r n a) (hrs : r.Before file s) : ListOf file s n a := by
  obtain ⟨os, ls, hflattens, hnumbered⟩ := h.flattens
  have hle {i x : Nat} (hi : r.nativeOf? i = some x) : s.nativeOf? i = some x :=
    (hrs.nativeOf? (Registry.lt_size_of_nativeOf? hi)).trans hi
  refine ⟨hle h.native, os, ls, hflattens.later hrs, fun l hl => ?_⟩
  obtain ⟨i, hi⟩ := hnumbered l hl
  exact ⟨i, hle hi⟩

lemma LeftSpine.mem_nodes {root : Node} (h : LeftSpine n l) (hn : n ∈ root.nodes) :
    l ∈ root.nodes := by
  induction h with
  | refl => exact hn
  | step _ _ hl ih => exact Tree.mem_nodes_trans ih (Tree.mem_nodes_of_mem (Below.mem_of_part? hl))

/-- From the commas that are the left side of none, at most one reaches down to a comma. -/
lemma LeftSpine.unique {k : Node} (hroot : file.root.nodes.Nodup) (hn : n ∈ file.root.nodes)
    (hk : k ∈ file.root.nodes) (hnLead : ¬ IsLead file n) (hkLead : ¬ IsLead file k)
    (hl : IsComma l) (h : LeftSpine n l) (h' : LeftSpine k l) : n = k := by
  induction h with
  | refl =>
    cases h' with
    | refl => rfl
    | step h hp hleft => exact absurd ⟨hl, _, h.mem_nodes hk, hp, hleft⟩ hnLead
  | step h hp hleft ih =>
    cases h' with
    | refl => exact absurd ⟨hl, _, h.mem_nodes hn, hp, hleft⟩ hkLead
    | step h' hp' hleft' =>
      obtain rfl := Tree.parent_unique hroot (h.mem_nodes hn) (h'.mem_nodes hk)
        (Below.mem_of_part? hleft) (Below.mem_of_part? hleft')
      exact ih hp h'

/-! ### The law -/

/-- Lists are those of whole nests, and nothing comes from a comma that is the left side of one. -/
structure ListsAt (file : SourceFile) (r : Registry) (m : EsNode) : Prop where
  list : m.type = .sequenceExpression → ∃ n ∈ file.root.nodes, ListOf file r n m
  whole : ∀ n ∈ file.root.nodes, IsLead file n → r.nativeOf? m.id ≠ some n.index

lemma ListsAt.of_same (hid : e.id = a.id) (htype : e.type = a.type) (hcs : e.children = a.children)
    (h : ListsAt file r a) : ListsAt file r e where
  list ht := by
    obtain ⟨n, hn, hnative, os, ls, hflattens⟩ := h.list (htype.symm.trans ht)
    exact ⟨n, hn, by rwa [hid], os, ls, by rwa [hcs]⟩
  whole := by rw [hid]; exact h.whole

/-- A node that is read, and is not the left side of a comma with a comma in it. -/
structure Listable (file : SourceFile) (n : Node) : Prop where
  mem : n ∈ file.root.nodes
  notLead : ¬ IsLead file n

/-- Only the left side of a comma is kept out. -/
lemma listable_part {r : Role} {m : Node} (h : Parsed file) (hn : n ∈ file.root.nodes)
    (hm : m ∈ n.partsOf r) (hr : r = .left → ¬ IsComma n) : Listable file m := by
  have hmem := Below.mem_of_partsOf hm
  refine ⟨Tree.mem_nodes_trans hn (Tree.mem_nodes_of_mem hmem), fun hlead => ?_⟩
  obtain ⟨p, hp, hcomma, hleft⟩ := hlead.above
  obtain rfl := Tree.parent_unique (.of_map _ h.ids) hn hp hmem (Below.mem_of_part? hleft)
  refine hr ?_ hcomma
  have hrole : m.role = r := by simpa using (List.mem_filter.1 hm).2
  have hrole' : m.role = .left := by simpa using (List.mem_filter.1 (mem_partsOf_of_part? hleft)).2
  exact hrole.symm.trans hrole'

lemma Listable.not_lead {k : Node} (h : Parsed file) (hn : Listable file n)
    (hk : k ∈ file.root.nodes)
    (hlead : IsLead file k) : (some n.index) ≠ some k.index := fun he => by
  obtain rfl := h.eq_of_index hn.mem hk (Option.some.inj he)
  exact hn.notLead hlead

lemma not_list_of_isPlain {t : NodeType} (h : isPlain t = true) : t ≠ .sequenceExpression := by
  rintro rfl
  cases h

/-- Lists are those of whole nests, for all nodes but those that come from the left side of a
comma. -/
def listsLaw (file : SourceFile) (h : Parsed file) : Law file where
  asks _ n := Listable file n
  inner n := Listable file n
  makes x t := t ≠ .sequenceExpression ∧
    ∀ n ∈ file.root.nodes, IsLead file n → x ≠ some n.index
  node := ListsAt file
  bare _ _ := True
  first_le := Terms.zero_le file
  node_inField := by
    rintro r ⟨l, cs⟩ f h
    exact .of_same (a := .node l cs) rfl rfl rfl h
  bare_inField _ h := h
  node_later hrs hbelow hm := by
    refine ⟨fun ht => ?_, ?_⟩
    · obtain ⟨n, hn, hlist⟩ := hm.list ht
      exact ⟨n, hn, hlist.later hrs⟩
    · rw [hrs.nativeOf? (hbelow _ (Tree.mem_nodes_self _))]
      exact hm.whole
  bare_later _ _ h := h
  made hmakes _ _ := ⟨⟨fun ht => absurd ht hmakes.1, hmakes.2⟩, trivial⟩
  children _ _ _ _ := trivial
  synthetic ht := ⟨not_list_of_isPlain ht, nofun⟩
  inner_asks h := h
  inner_binds h _ := h
  inner_part hn hquiet hm := by
    refine listable_part h hn.mem hm fun hr hcomma => ?_
    subst hr
    simp [isQuiet, hcomma.kind] at hquiet
  inner_spotted h :=
    ⟨h.mem, Nat.zero_le _, Nat.zero_le _, Nat.zero_le _, fun _ _ _ _ => Nat.zero_le _⟩
  inlined hn _ ht := ⟨not_list_of_isPlain ht, fun _ hk => hn.not_lead h hk⟩

variable (h : Parsed file)

lemma listsLaw_plain (hn : Listable file n) (hcomma : ¬ IsComma n) : Plain (listsLaw file h) n where
  mem := hn.mem
  pos := Nat.zero_le _
  start := Nat.zero_le _
  stop := Nat.zero_le _
  list _ _ _ _ := Nat.zero_le _
  opening _ _ := Nat.zero_le _
  part m hm := listable_part h hn.mem (r := m.role) (List.mem_filter.2 ⟨hm, by simp⟩)
    fun _ => hcomma
  makes t ht := ⟨not_list_of_isPlain ht, fun _ hk => hn.not_lead h hk⟩

lemma listsLaw_loose : Loose (listsLaw file h) where
  chain _ hmakes _ := ⟨⟨fun ht => absurd ht hmakes.1, hmakes.2⟩, trivial⟩
  inner _ _ _ _ := trivial

lemma listsLaw_rangeless : Rangeless (listsLaw file h) where
  node {r m w loc} hm := by
    obtain ⟨l, cs⟩ := m
    exact .of_same (a := .node l cs) rfl rfl rfl hm
  bare h := h

/-! ### Commas -/

/-- What a comma comes to. -/
structure Nest (r s : Registry) (n : Node) (a : EsNode) : Prop where
  before : r.Before file s
  kept : s.Kept file
  type : a.type = .sequenceExpression
  list : ListOf file s n a
  good : ∀ c ∈ a.children, (listsLaw file h).Good s c

/-- What lies below is known, be it the left side of a comma or not. -/
structure ListsBelow (place : Place) (depth : Nat) : Prop where
  asked : Asked { file, place, recur := Convert.node file depth } (listsLaw file h)
  joining : Joining { file, place, recur := Convert.node file depth }
  nest {below : Place} {m : Node} {r s : Registry} {a : EsNode} : IsLead file m →
    r.Kept file → Convert.node file depth below m r = .ok (a, s) → Nest h r s m a

namespace Convert

variable {place : Place} {depth : Nat}

/-- **The list of a comma**: that of its left side, or the left side alone, and then the right. -/
theorem sequence_nest (hbelow : ListsBelow h place depth) (hn : n ∈ file.root.nodes)
    (hcomma : IsComma n) (hr : r.Kept file)
    (hrun : sequence n { file, place, recur := node file depth } r = .ok (a, s)) :
    Nest h r s n a := by
  obtain ⟨m, p, left, right, r₁, r₂, r₃, hm, hp, hleft, hright, hwhole, rfl⟩ := sequence_run hrun
  obtain ⟨hasked, hjoining, hnest⟩ := hbelow
  obtain ⟨rfl, hid, htype, hcs, -⟩ := finish_run hwhole
  have hmem {r : Role} {k : Node} (hk : n.part? r = some k) : k ∈ file.root.nodes :=
    Tree.mem_nodes_trans hn (Tree.mem_nodes_of_mem (Below.mem_of_part? hk))
  have hpart {k : Node} {e : EsNode} {s t : Registry} (hk : Listable file k) (hs : s.Kept file)
      (hrun : convertPart n k false { file, place, recur := node file depth } s = .ok (e, t)) :
      Moves (listsLaw file h) s t e :=
    hasked.moves hk hs (show node file depth (place.below n false) k s = .ok (e, t) from hrun)
  have hright' (hkept : r₁.Kept file) : Moves (listsLaw file h) r₁ r₂ right :=
    hpart (listable_part h hn (mem_partsOf_of_part? hp) nofun) hkept hright
  have hbefore₃ : r₂.Before file (r₂.next (some n.index)).2 := .next _
  have hnative : (r₂.next (some n.index)).2.nativeOf? a.id = some n.index := by
    rw [Registry.nativeOf?_next, if_pos hid]
  -- what is left to say of either case: how the registry goes on, and what stands before the right
  have hend {s : Registry} {es : List EsNode} {os ls : List Node} (hr₂ : r.Before file r₂)
      (hs : (r₂.next (some n.index)).2.Before file s) (hkept : s.Kept file)
      (hes : (earlierIn m left).map (·.inField .expressions) = es)
      (hflattens : Flattens file s n (es ++ [right.inField .expressions]) os (n :: ls))
      (hnumbered : ∀ l ∈ ls, ∃ i, s.nativeOf? i = some l.index)
      (hgood : ∀ c ∈ es, (listsLaw file h).Good s c) (hlast : (listsLaw file h).Good s right) :
      Nest h r s n a := by
    have hcs' : a.children = es ++ [right.inField .expressions] := by
      rw [hcs, ← hes]
      simp [Part.nodes_list]
    have hnative' := (hs.nativeOf? (Registry.lt_size_of_nativeOf? hnative)).trans hnative
    refine ⟨(hr₂.trans hbefore₃).trans hs, hkept, htype, ⟨hnative', _, _, hcs' ▸ hflattens, ?_⟩, ?_⟩
    · exact List.forall_mem_cons.2 ⟨⟨a.id, hnative'⟩, hnumbered⟩
    · rw [hcs']
      exact List.forall_mem_append.2 ⟨hgood, List.forall_mem_singleton.2 (hlast.inField _)⟩
  have hconverts {k : Node} {e : EsNode} {s t t' : Registry}
      (hk : convertPart n k false { file, place, recur := node file depth } s = .ok (e, t))
      (ht : t.Before file t') : ConvertsTo file t' .expressions k (e.inField .expressions) :=
    ⟨depth, place.below n false, s, t, e, rfl, hk, ht, rfl⟩
  by_cases hmc : IsComma m
  · have hleft' := hnest ⟨hmc, n, hn, hcomma, hm⟩ hr hleft
    obtain ⟨hbefore₂, hkept₂, hgoodRight⟩ := hright' hleft'.kept
    have hcontinues : continuesList m left = true := by
      simp [continuesList, hleft'.type, Tree.isForm, hmc.kind]
    obtain ⟨os, ls, hflattens, hnumbered⟩ := hleft'.list.flattens
    have hearlier : (earlierIn m left).map (·.inField .expressions) = left.children := by
      have hfield : left.childrenIn .expressions = left.children :=
        List.filter_eq_self.2 fun c hc => by simp [(hflattens.inField c hc).1]
      rw [earlierIn, if_pos hcontinues, hfield]
      exact (List.map_congr_left fun c hc => (hflattens.inField c hc).2).trans (List.map_id _)
    have hold := (hbefore₂.trans hbefore₃).nativeOf?
      (Registry.lt_size_of_nativeOf? hleft'.list.native)
    obtain ⟨hbefore₄, hkept₄⟩ := Registry.redirect_kept (d := left.id) (k := a.id)
      (hkept₂.next (some n.index))
      (fun x hx => Option.some.inj ((hold.trans hleft'.list.native).symm.trans hx) ▸
        ⟨m, hmem hm, rfl, .inr ⟨hmc.kind, hmc.operator⟩⟩) (Option.isSome_of_mem hnative)
    rw [if_pos hcontinues]
    have hfinal := hbefore₃.trans hbefore₄
    refine hend (hleft'.before.trans hbefore₂) hbefore₄ hkept₄ hearlier (.more hcomma hm hp
      (hflattens.later (hbefore₂.trans hfinal)) (hconverts hright hfinal)) (fun l hl => ?_)
      (fun c hc => (hleft'.good c hc).later (hbefore₂.trans hfinal)) (hgoodRight.later hfinal)
    obtain ⟨i, hi⟩ := hnumbered l hl
    exact ⟨i, ((hbefore₂.trans hfinal).nativeOf? (Registry.lt_size_of_nativeOf? hi)).trans hi⟩
  · obtain ⟨hbefore₁, hkept₁, hgoodLeft⟩ : Moves (listsLaw file h) r r₁ left :=
      hpart ⟨hmem hm, fun hlead => hmc hlead.comma⟩ hr hleft
    obtain ⟨hbefore₂, hkept₂, hgoodRight⟩ := hright' hkept₁
    have hcontinues : continuesList m left = false := by
      refine Bool.eq_false_iff.2 fun hc => hmc ?_
      exact (comma_of_continues hjoining hn hcomma hm hleft hc).1
    have hclosed : (left.inField .expressions).type = .sequenceExpression →
        m.kind = .form .parenthesizedExpression := fun ht => by
      have ht : left.type = .sequenceExpression := by
        cases left
        exact ht
      simpa [continuesList, ht, Tree.isForm] using hcontinues
    rw [hcontinues, if_neg Bool.false_ne_true]
    have hearlier : (earlierIn m left).map (·.inField .expressions) =
        [left.inField .expressions] := by simp [earlierIn, hcontinues]
    refine hend (hbefore₁.trans hbefore₂) (.refl _) (hkept₂.next _) hearlier
      (.pair hcomma hm hp hmc (hconverts hleft (hbefore₂.trans hbefore₃))
        (hconverts hright hbefore₃) hclosed) (by simp)
      (List.forall_mem_singleton.2 ((hgoodLeft.later (hbefore₂.trans hbefore₃)).inField _))
      (hgoodRight.later hbefore₃)

/-- A comma that is the left side of none keeps to the law. -/
lemma moves_of_nest (hn : Listable file n) (hcomma : IsComma n) (hnest : Nest h r s n a) :
    Moves (listsLaw file h) r s a := by
  obtain ⟨hbefore, hkept, htype, hlist, hgood⟩ := hnest
  refine ⟨hbefore, hkept, ?_⟩
  refine .ofNode (Registry.lt_size_of_nativeOf? hlist.native) (Nat.zero_le _) (fun ht => ?_)
    (fun _ => ⟨n.index, hlist.native, n, hn.mem, rfl, .inr ⟨hcomma.kind, hcomma.operator⟩⟩)
    (fun ht => ?_) ⟨⟨fun _ => ⟨n, hn.mem, hlist⟩, fun k hk hlead => ?_⟩, trivial⟩
    fun c hc => (hgood c hc).noted
  · rw [htype] at ht
    cases ht
  · rw [htype] at ht
    cases ht
  · rw [hlist.native]
    exact hn.not_lead h hk hlead

/-- The rule for any other node. -/
lemma byRule_lists (hbelow : ListsBelow h place depth) (hn : Listable file n)
    (hcomma : ¬ IsComma n) :
    Gives { file, place, recur := node file depth } (listsLaw file h) .none (byRule n) := by
  have hasked := hbelow.asked
  have hplain := listsLaw_plain h hn hcomma
  have hmakes {t : NodeType} (ht : t ≠ .sequenceExpression) :
      (listsLaw file h).makes (some n.index) t := ⟨ht, fun _ hk => hn.not_lead h hk⟩
  refine byRule_gives (fun f hf hk => ?_) fun _ => hplain
  rcases List.mem_append.1 hf with hf | hf
  · rcases List.mem_append.1 hf with hf | hf
    · exact targetRule_gives hplain hk hf hplain.part fun hk' ho => absurd ⟨hk', ho⟩ hcomma
    · refine linkRule_gives hplain (listsLaw_loose h) hk hf fun t ht => hmakes ?_
      rintro rfl
      revert ht
      decide
  · exact exportRule_gives hplain (listsLaw_rangeless h) hk hf fun _ _ _ hn hm =>
      listable_part h hn.mem hm nofun

/-- **A whole tree is converted to lists of whole nests.** -/
theorem listsBelow (hjoins : ∀ n ∈ file.root.nodes, IsComma n → Grammar.Joins n) (depth : Nat)
    (place : Place) : ListsBelow h place depth := by
  induction depth generalizing place with
  | zero =>
    exact ⟨⟨h.sited, (fun _ _ hrun => nomatch hrun), isBindingType_of_run⟩,
      joining_node hjoins place 0, fun _ _ hrun => nomatch hrun⟩
  | succ depth ih =>
    have hrule {place : Place} {n : Node} {r s : Registry} {a : EsNode}
        (hn : n ∈ file.root.nodes) (hcomma : IsComma n) (hr : r.Kept file)
        (hrun : node file (depth + 1) place n r = .ok (a, s)) : Nest h r s n a := by
      rw [node, byRule_of_comma hcomma] at hrun
      exact sequence_nest h (ih place) hn hcomma hr hrun
    refine ⟨⟨h.sited, (fun {below n r s a} hn hr hrun => ?_), isBindingType_of_run⟩,
      joining_node hjoins place _, fun {below m r s a} hlead hr hrun => ?_⟩
    · by_cases hcomma : IsComma n
      · exact moves_of_nest h hn hcomma (hrule hn.mem hcomma hr hrun)
      · exact (byRule_lists h (ih below) hn hcomma).moves trivial hr hrun
    · obtain ⟨p, hp, -, hleft⟩ := hlead.above
      exact hrule (Tree.mem_nodes_trans hp (Tree.mem_nodes_of_mem (Below.mem_of_part? hleft)))
        hlead.comma hr hrun

end Convert

/-! ### Lists in a converted tree -/

/-- The node is the list of a whole nest of commas: its expressions are what stands between them, in
the order of the source, and it answers for every comma. -/
structure FlatList (file : SourceFile) (c : Conversion) (e : EsNode) (n : Node)
    (os ls : List Node) :
    Prop where
  native : c.registry.nativeOf? e.id = some n.index
  maximal : ¬ IsLead file n
  flattens : Flattens file c.registry n e.children os ls
  ordered : os.Pairwise fun o o' => o.stop ≤ o'.pos
  answers : ∀ l ∈ ls, c.registry.convertedOf? l.index = some e.id

lemma joins_of_comma {name : String} {text : Source} :
    ∀ n ∈ (SourceFile.parse name text).root.nodes, IsComma n → Grammar.Joins n :=
  fun n hn hcomma => SourceFile.joins_parse hn (by
    rw [Grammar.operator?, Tree.isForm, hcomma.kind, beq_self_eq_true, if_pos rfl]
    exact hcomma.operator)

/-- **In a converted file every list is that of a whole nest of commas.** -/
theorem sequences_fit (name : String) (text : Source) (c : Conversion)
    (h : Conversion.ofFile (SourceFile.parse name text) = .ok c) :
    ∀ e ∈ c.program.nodes, e.type = .sequenceExpression →
      ∃ n ∈ (SourceFile.parse name text).root.nodes, ∃ os ls,
        FlatList (SourceFile.parse name text) c e n os ls := by
  set file := SourceFile.parse name text with hfile
  have hparsed : Parsed file := parsed_parse name text
  have hjoins : ∀ n ∈ file.root.nodes, IsComma n → Grammar.Joins n := joins_of_comma
  have hroot : ¬ IsComma file.root := fun hcomma => by
    cases (show file.root.kind = .form .sourceFile from rfl).symm.trans hcomma.kind
  have hmoves : Moves (listsLaw file hparsed) {} c.registry c.program :=
    ofFile_moves_of_asked (Convert.listsBelow hparsed hjoins file.root.height {}).asked
      (listsLaw_plain hparsed ⟨Tree.mem_nodes_self _, fun hlead => hroot hlead.comma⟩ hroot) h
  intro e he ht
  obtain ⟨n, hn, hnative, os, ls, hflattens, hnumbered⟩ := (hmoves.good.noted e he).node.list ht
  have hnest := hflattens.nest
  have hlead {m : EsNode} (hm : m ∈ c.program.nodes) {k : Node} (hk : k ∈ file.root.nodes)
      (hnative : c.registry.nativeOf? m.id = some k.index) : ¬ IsLead file k :=
    fun hlead => (hmoves.good.noted m hm).node.whole k hk hlead hnative
  have hgrew : Registry.Grew file n.index 1 {} c.registry := by
    refine ofFile_grew ⟨hparsed, fun m hm hindex => ?_⟩ hjoins (Nat.le_refl 1)
      (fun m hm hindex => .inr ?_) h
    all_goals obtain rfl := hparsed.eq_of_index hm hn hindex
    · exact ⟨_, hnest.isComma.kind⟩
    · exact .inl hnest.isComma
  have hordered := (hnest.ordered (SourceFile.wellFormed_parse name text) hjoins hn).1
  refine ⟨n, hn, os, ls, hnative, hlead he hn hnative, hflattens, hordered, fun l hl => ?_⟩
  -- what answers for the comma is in the tree, so it comes from the outermost comma of a nest
  obtain ⟨k, hk⟩ := hnumbered l hl
  obtain ⟨i, hi⟩ := Option.isSome_iff_exists.1
    ((accounted_ofFile hparsed.sited h).1.answered k l.index hk)
  have hcomma := hnest.isComma_of_mem l hl
  have hspine := hnest.leftSpine l hl
  obtain ⟨p, hp, -, hpNative, hpSpine⟩ :=
    hgrew.sound.commas l (hspine.mem_nodes hn) hcomma i hi
  obtain ⟨m, hm, rfl⟩ := (fitsTree_ofFile h).answers l.index i hi
  obtain rfl := hspine.unique (.of_map _ hparsed.ids) hn hp (hlead he hn hnative)
    (hlead hm hp hpNative) hcomma hpSpine
  by_contra hne
  have hnodup : [m.id, e.id].Nodup := by
    have hne : m.id ≠ e.id := fun he => hne (hi.trans (congrArg some he))
    simpa using hne
  have hlength : 2 ≤ c.registry.timesOf n.index :=
    Registry.length_le_timesOf hnodup (by simp [hpNative, hnative])
  have htimes : c.registry.timesOf n.index ≤ 1 := hgrew.times
  omega

/-- Nests to the left, and nests in parentheses on either side. -/
def nestedLists : Source := "(a, b), c, d; ((e, (f, g)), h)".toList

set_option maxRecDepth 10000 in
theorem nestedLists_fit :
    ∃ c, Conversion.ofFile (SourceFile.parse "a.ts" nestedLists) = .ok c ∧
      ∀ e ∈ c.program.nodes, e.type = .sequenceExpression →
        ∃ n ∈ (SourceFile.parse "a.ts" nestedLists).root.nodes, ∃ os ls,
          FlatList (SourceFile.parse "a.ts" nestedLists) c e n os ls := by
  have hok : (Conversion.ofFile (SourceFile.parse "a.ts" nestedLists)).isOk = true := by
    decide +kernel
  obtain ⟨c, h⟩ := Conversion.exists_of_isOk hok
  exact ⟨c, h, sequences_fit _ _ c h⟩

end EstreeLint.Estree
