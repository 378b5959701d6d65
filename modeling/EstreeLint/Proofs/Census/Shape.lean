import EstreeLint.Proofs.Census.Count
import EstreeLint.Proofs.Sites.Statements

/-!
What is known of a node that a conversion has made: its bounds are cuts, and where a later step
takes it apart or adds to it, which fields its children stand in.
-/

namespace EstreeLint

namespace Text

variable {text : Source} {p q : Nat}

lemma IsCut.min (hp : IsCut text p) (hq : IsCut text q) : IsCut text (min p q) :=
  min_rec' (IsCut text) hp hq

lemma IsCut.max (hp : IsCut text p) (hq : IsCut text q) : IsCut text (max p q) :=
  max_rec' (IsCut text) hp hq

end Text

namespace Estree

open Text (IsCut)

/-! ### Children in the order of their fields -/

section Order

variable {α : Type} {key : α → Nat} {k : Nat} {l : List α}

lemma takeWhile_lt (h : l.Pairwise (key · ≤ key ·)) :
    l.takeWhile (key · < k) = l.filter (key · < k) := by
  induction l with
  | nil => rfl
  | cons x l ih =>
    obtain ⟨hx, hl⟩ := List.pairwise_cons.1 h
    rw [List.takeWhile_cons, List.filter_cons]
    split
    · rw [ih hl]
    · next hk =>
      refine (List.filter_eq_nil_iff.2 fun y hy => ?_).symm
      have hle := hx y hy
      simp only [decide_eq_true_eq] at hk ⊢
      omega

lemma dropWhile_le (h : l.Pairwise (key · ≤ key ·)) :
    l.dropWhile (key · ≤ k) = l.filter (k < key ·) := by
  induction l with
  | nil => rfl
  | cons x l ih =>
    obtain ⟨hx, hl⟩ := List.pairwise_cons.1 h
    rw [List.dropWhile_cons, List.filter_cons]
    split
    · next hk =>
      rw [ih hl, if_neg]
      simp only [decide_eq_true_eq] at hk ⊢
      omega
    · next hk =>
      simp only [decide_eq_true_eq] at hk
      rw [if_pos (by simp only [decide_eq_true_eq]; omega), List.filter_eq_self.2 fun y hy => ?_]
      have hle := hx y hy
      simp only [decide_eq_true_eq]
      omega

end Order

lemma Field.number_inj {f g : Field} (h : f.number = g.number) : f = g := by
  rw [← Field.ofNat_ctorIdx f, ← Field.ofNat_ctorIdx g]
  exact congrArg Field.ofNat h

/-- The children stand in the order of their fields. -/
def InOrder (n : EsNode) : Prop := n.children.Pairwise (·.field.number ≤ ·.field.number)

/-- No child stands in the field. -/
def Vacant (n : EsNode) (f : Field) : Prop := ∀ c ∈ n.children, c.field ≠ f

section Edits

variable {n : EsNode} {f g : Field} {slot : Slot} {ns : List EsNode}

@[simp] lemma field_inField (c : EsNode) : (c.inField f).field = f := by cases c; rfl

lemma children_setSlot (h : InOrder n) :
    (n.setSlot f slot ns).children =
      n.children.filter (·.field.number < f.number) ++ ns.map (Tree.inField f) ++
        n.children.filter (f.number < ·.field.number) := by
  rw [← takeWhile_lt h, ← dropWhile_le h]
  rfl

lemma ids_around (f : Field) (cs : List EsNode) :
    ids (cs.filter (·.field.number < f.number)) + ids (cs.filter (·.field == f)) +
      ids (cs.filter (f.number < ·.field.number)) = ids cs := by
  induction cs with
  | nil => rfl
  | cons c cs ih =>
    rw [ids_cons, ← ih]
    rcases Nat.lt_trichotomy c.field.number f.number with h | h | h
    · have hne : c.field ≠ f := fun he => absurd (congrArg Field.number he) (Nat.ne_of_lt h)
      simp only [List.filter_cons, h, Nat.lt_asymm h, beq_false_of_ne hne, decide_true,
        decide_false, if_true, Bool.false_eq_true, if_false, ids_cons]
      abel
    · obtain rfl := Field.number_inj h
      simp only [List.filter_cons, Nat.lt_irrefl, beq_self_eq_true, decide_false, if_true,
        Bool.false_eq_true, if_false, ids_cons]
      abel
    · have hne : c.field ≠ f := fun he => absurd (congrArg Field.number he) (Nat.ne_of_gt h)
      simp only [List.filter_cons, h, Nat.lt_asymm h, beq_false_of_ne hne, decide_true,
        decide_false, if_true, Bool.false_eq_true, if_false, ids_cons]
      abel

/-- What a field has held goes, and what is put into it comes. -/
lemma ids_setSlot (h : InOrder n) :
    ids (n.setSlot f slot ns) + ids (n.childrenIn f) = ids n + ids ns := by
  have hid : (n.setSlot f slot ns).id = n.id := rfl
  rw [ids_eq, ids_eq n, children_setSlot h, ids_append, ids_append,
    ids_map (f := Tree.inField f) (fun _ => ids_inField f), hid, ← ids_around f n.children,
    Tree.childrenIn]
  abel

lemma inOrder_setSlot (h : InOrder n) : InOrder (n.setSlot f slot ns) := by
  have hnew : ∀ c ∈ ns.map (Tree.inField f), c.field = f := by simp
  rw [InOrder, children_setSlot h, List.pairwise_append, List.pairwise_append]
  refine ⟨⟨h.filter _, ?_, fun a ha b hb => ?_⟩, h.filter _, fun a ha b hb => ?_⟩
  · exact List.pairwise_of_forall_mem_list fun a ha b hb => by rw [hnew a ha, hnew b hb]
  · rw [hnew b hb]
    have hlt := List.of_mem_filter ha
    simp only [decide_eq_true_eq] at hlt
    omega
  · have hgt := List.of_mem_filter hb
    simp only [decide_eq_true_eq] at hgt
    rcases List.mem_append.1 ha with ha | ha
    · have hlt := List.of_mem_filter ha
      simp only [decide_eq_true_eq] at hlt
      omega
    · rw [hnew a ha]
      omega

lemma Vacant.setSlot (h : Vacant n g) (hne : f ≠ g) : Vacant (n.setSlot f slot ns) g := by
  intro c hc
  rcases mem_children_setSlot hc with hc | ⟨m, -, rfl⟩
  · exact h c hc
  · rwa [field_inField]

lemma Vacant.childrenIn (h : Vacant n f) : n.childrenIn f = [] :=
  List.filter_eq_nil_iff.2 fun c hc => by simpa using h c hc

/-- Nothing is lost where nothing has stood. -/
lemma ids_setSlot_vacant (h : InOrder n) (hf : Vacant n f) :
    ids (n.setSlot f slot ns) = ids n + ids ns := by
  have hset : ids (n.setSlot f slot ns) + ids (n.childrenIn f) = ids n + ids ns := ids_setSlot h
  rwa [hf.childrenIn, ids_nil, add_zero] at hset

lemma inOrder_of_field (h : ∀ c ∈ n.children, c.field = f) : InOrder n :=
  List.pairwise_of_forall_mem_list fun a ha b hb => by rw [h a ha, h b hb]

end Edits

namespace Part

@[simp] lemma nodes_value (f : Field) (v : Value) : (Part.value f v).nodes = [] := rfl

@[simp] lemma nodes_flag (f : Field) (b : Bool) : (Part.flag f b).nodes = [] := rfl

@[simp] lemma nodes_text? (f : Field) (s : Option String) : (Part.text? f s).nodes = [] := by
  cases s <;> rfl

@[simp] lemma nodes_one (f : Field) (n : EsNode) : (Part.one f n).nodes = [n.inField f] := rfl

@[simp] lemma nodes_list (f : Field) (ns : List EsNode) :
    (Part.list f ns).nodes = ns.map (Tree.inField f) := by
  simp [Part.list, nodes, List.filterMap_map]

/-- The field that a part is for. -/
def field? (p : Part) : Option Field := p.slot?.map (·.1)

lemma field?_of_mem {p : Part} {c : EsNode} (h : c ∈ p.nodes) : p.field? = some c.field := by
  cases p with
  | one f n =>
    obtain rfl := List.mem_singleton.1 h
    rw [field_inField]
    rfl
  | many f ns =>
    obtain ⟨o, -, ho⟩ := List.mem_filterMap.1 h
    obtain ⟨n, -, rfl⟩ := Option.map_eq_some_iff.1 ho
    rw [field_inField]
    rfl
  | value => cases h
  | absent => cases h

lemma filter_nodes (f : Field) (ps : List Part) :
    (ps.flatMap nodes).filter (·.field == f) = (ps.filter (·.field? == some f)).flatMap nodes := by
  induction ps with
  | nil => rfl
  | cons p ps ih =>
    rw [List.flatMap_cons, List.filter_append, ih, List.filter_cons]
    split
    · next h =>
      rw [List.flatMap_cons, List.filter_eq_self.2 fun c hc => ?_]
      rw [field?_of_mem hc] at h
      simpa using h
    · next h =>
      rw [List.filter_eq_nil_iff.2 fun c hc hf => h ?_, List.nil_append]
      rw [field?_of_mem hc]
      simpa using hf

/-- What is put in by the order of the fields stands in it. -/
lemma ordered {ps : List Part} (fs : List Field) (h : ps.filterMap field? = fs)
    (hfs : fs.Pairwise (·.number ≤ ·.number)) :
    (ps.flatMap nodes).Pairwise (·.field.number ≤ ·.field.number) := by
  subst h
  rw [List.pairwise_filterMap] at hfs
  refine List.pairwise_flatMap.2 ⟨fun p _ => ?_, hfs.imp fun {p q} hpq a ha b hb => ?_⟩
  · refine List.pairwise_of_forall_mem_list fun a ha b hb => ?_
    have heq : some a.field = some b.field := (field?_of_mem ha).symm.trans (field?_of_mem hb)
    rw [Option.some.inj heq]
  · exact hpq _ (field?_of_mem ha) _ (field?_of_mem hb)

end Part

/-! ### Bounds -/

variable {file : SourceFile}

/-- The offset is a cut if the file is without errors. -/
def CutAt (file : SourceFile) (p : Nat) : Prop := file.errors = [] → IsCut file.text p

/-- The span starts and stops at cuts if the file is without errors. -/
structure SpanCut (file : SourceFile) (r : Span) : Prop where
  start : CutAt file r.start
  stop : CutAt file r.stop

section Bounds

variable {p q : Nat} {r s : Span} {ns : List EsNode}

lemma CutAt.min (hp : CutAt file p) (hq : CutAt file q) : CutAt file (min p q) :=
  fun he => (hp he).min (hq he)

lemma CutAt.max (hp : CutAt file p) (hq : CutAt file q) : CutAt file (max p q) :=
  fun he => (hp he).max (hq he)

lemma SpanCut.between (hp : CutAt file p) (hq : CutAt file q) : SpanCut file (Span.between p q) :=
  ⟨hp, hp.max hq⟩

lemma SpanCut.widen (hr : SpanCut file r) (hs : SpanCut file s) : SpanCut file (r.widen s) :=
  ⟨hr.start.min hs.start, hr.stop.max hs.stop⟩

lemma SpanCut.widenOver (hr : SpanCut file r) (hns : ∀ n ∈ ns, SpanCut file n.range) :
    SpanCut file (Tree.widenOver r ns) := by
  induction ns generalizing r with
  | nil => exact hr
  | cons n ns ih =>
    exact ih (hr.widen (hns n (by simp))) fun m hm => hns m (by simp [hm])

end Bounds

/-! ### Nodes that are as their type has them -/

/-- The one field that the children of a node of the type stand in, for the types that a later step
takes apart or adds to. -/
def soleField? : NodeType → Option Field
  | .chainExpression | .expressionStatement => some .expression
  | .sequenceExpression => some .expressions
  | _ => none

/-- The children are where a node of the type has them. -/
structure Seated (type : NodeType) (cs : List EsNode) : Prop where
  fields : ∀ f, soleField? type = some f → ∀ c ∈ cs, c.field = f
  single : type = .chainExpression → cs.length = 1

lemma Seated.plain {type : NodeType} {cs : List EsNode} (h : soleField? type = none) :
    Seated type cs where
  fields f hf := by
    rw [h] at hf
    cases hf
  single ht := by
    rw [ht] at h
    cases h

lemma Seated.one {type : NodeType} {f : Field} {c : EsNode}
    (h : ∀ g, soleField? type = some g → g = f) : Seated type [c.inField f] where
  fields g hg c hc := by
    rw [List.mem_singleton.1 hc, field_inField, h g hg]
  single _ := rfl

lemma Seated.list {type : NodeType} {f : Field} (cs : List EsNode)
    (h : ∀ g, soleField? type = some g → g = f) (hne : type ≠ .chainExpression) :
    Seated type ([Part.list f cs].flatMap Part.nodes) where
  fields g hg c hc := by
    have hfield : (Part.list f cs).field? = some c.field :=
      Part.field?_of_mem (by simpa using hc)
    rw [h g hg]
    exact (Option.some.inj hfield).symm
  single ht := absurd ht hne

/-- The bounds of a node are cuts, and its children are seated. -/
structure Regular (file : SourceFile) (n : EsNode) : Prop where
  bounds : SpanCut file n.range
  seated : Seated n.type n.children

/-- All nodes of a tree are regular. -/
def Proper (file : SourceFile) (n : EsNode) : Prop := ∀ m ∈ n.nodes, Regular file m

section Proper

variable {n : EsNode} {f : Field} {slot : Slot} {ns : List EsNode}

lemma proper_iff : Proper file n ↔ Regular file n ∧ ∀ c ∈ n.children, Proper file c :=
  Tree.forall_mem_nodes

lemma Proper.regular (h : Proper file n) : Regular file n := (proper_iff.1 h).1

lemma Proper.child (h : Proper file n) {c : EsNode} (hc : c ∈ n.children) : Proper file c :=
  (proper_iff.1 h).2 c hc

instance : Steady (Proper file) where
  inField f n := by
    obtain ⟨l, cs⟩ := n
    rw [proper_iff, proper_iff]
    refine and_congr_left fun _ => ?_
    constructor <;> rintro ⟨h, h'⟩ <;> exact ⟨h, h'⟩

/-- A new node over proper nodes. -/
lemma proper_node {l : Label} {r : Span} {cs : List EsNode} (hc : ∀ c ∈ cs, Proper file c)
    (hr : SpanCut file r) (hl : l.range = Tree.widenOver r cs) (ht : Seated l.type cs) :
    Proper file (.node l cs) := by
  refine proper_iff.2 ⟨⟨?_, ht⟩, hc⟩
  change SpanCut file l.range
  rw [hl]
  exact hr.widenOver fun c h => (hc c h).regular.bounds

/-- A node whose range is found anew. -/
lemma proper_settle (hc : ∀ c ∈ n.children, Proper file c) (hr : SpanCut file n.range)
    (ht : Seated n.type n.children) : Proper file (Convert.settle file n) := by
  obtain ⟨l, cs⟩ := n
  exact proper_node hc hr rfl ht

lemma children_setSlot_proper (hn : ∀ c ∈ n.children, Proper file c)
    (hns : ∀ m ∈ ns, Proper file m) : ∀ c ∈ (n.setSlot f slot ns).children, Proper file c := by
  intro c hc
  rcases mem_children_setSlot hc with hc | ⟨m, hm, rfl⟩
  · exact hn c hc
  · exact (Steady.inField f m).2 (hns m hm)

/-- An edit of a node that no later step takes apart. -/
lemma Proper.setSlot (h : Proper file n) (hns : ∀ m ∈ ns, Proper file m)
    (ht : soleField? n.type = none) : Proper file (n.setSlot f slot ns) :=
  proper_iff.2 ⟨⟨h.regular.bounds, .plain ht⟩, children_setSlot_proper (fun _ => h.child) hns⟩

/-- A value that is put into a statement. -/
lemma Proper.setValue {v : Value} (h : Proper file n) (ht : n.type = .expressionStatement) :
    Proper file (n.setValue f v) := by
  have hsub : ∀ c ∈ (n.setValue f v).children, c ∈ n.children := fun c hc =>
    (mem_children_setSlot hc).resolve_right (by simp)
  refine proper_iff.2 ⟨⟨h.regular.bounds, fun g hg c hc => ?_, fun hchain => ?_⟩,
    fun c hc => h.child (hsub c hc)⟩
  · exact h.regular.seated.fields g hg c (hsub c hc)
  · have hne : NodeType.expressionStatement = .chainExpression := ht.symm.trans hchain
    cases hne

end Proper

/-! ### Bindings -/

/-- A binding with nothing in some fields so far. -/
structure Binding (free : List Field) (n : EsNode) : Prop where
  type : Convert.isBindingType n.type = true
  ordered : InOrder n
  vacant : ∀ f ∈ free, Vacant n f

/-- What can be given a type, a question mark and decorators, and has none so far. -/
abbrev Bindable (n : EsNode) : Prop := Binding [.type, .optional, .decorators] n

/-- What can be given decorators, and has none so far. -/
structure Decorable (n : EsNode) : Prop where
  type : Convert.isBindingType n.type = true ∨ n.type = .tsParameterProperty
  ordered : InOrder n
  vacant : Vacant n .decorators

lemma Decorable.of_same {m n : EsNode} (h : Decorable n) (ht : m.type = n.type)
    (hc : m.children = n.children) : Decorable m := by
  obtain ⟨htype, hordered, hvacant⟩ := h
  refine ⟨by rwa [ht], by rwa [InOrder, hc], fun c hmem => hvacant c (by rwa [← hc])⟩

lemma soleField?_of_binding {type : NodeType} (h : Convert.isBindingType type = true) :
    soleField? type = none := by
  cases type <;> first | rfl | exact absurd h (by decide)

lemma soleField?_of_decorable {type : NodeType}
    (h : Convert.isBindingType type = true ∨ type = .tsParameterProperty) :
    soleField? type = none := by
  rcases h with h | rfl
  · exact soleField?_of_binding h
  · rfl

namespace Binding

variable {free : List Field} {n : EsNode} {f : Field} {slot : Slot} {ns : List EsNode}

lemma plain (h : Binding free n) : soleField? n.type = none := soleField?_of_binding h.type

lemma tail (h : Binding (f :: free) n) : Binding free n :=
  ⟨h.type, h.ordered, fun g hg => h.vacant g (List.mem_cons_of_mem _ hg)⟩

lemma ids_setSlot (h : Binding (f :: free) n) : ids (n.setSlot f slot ns) = ids n + ids ns :=
  ids_setSlot_vacant h.ordered (h.vacant f (by simp))

lemma setSlot (h : Binding (f :: free) n) (hf : f ∉ free) : Binding free (n.setSlot f slot ns) :=
  ⟨h.type, inOrder_setSlot h.ordered, fun g hg =>
    (h.vacant g (List.mem_cons_of_mem _ hg)).setSlot fun he => hf (he ▸ hg)⟩

lemma relabel {g : Label → Label} (h : Binding free n) (hg : ∀ l, (g l).type = l.type) :
    Binding free (n.mapLabel g) := by
  obtain ⟨ht, hordered, hvacant⟩ := h
  cases n with
  | node l cs => exact ⟨(congrArg Convert.isBindingType (hg l)).trans ht, hordered, hvacant⟩

lemma decorable (h : Binding [.decorators] n) : Decorable n :=
  ⟨.inl h.type, h.ordered, h.vacant _ (by simp)⟩

end Binding

lemma bindable_node {l : Label} {cs : List EsNode} {f : Field}
    (ht : Convert.isBindingType l.type = true) (hcs : ∀ c ∈ cs, c.field = f)
    (hf : f ∉ [Field.type, .optional, .decorators]) : Bindable (.node l cs) :=
  ⟨ht, inOrder_of_field hcs, fun g hg c hc h => hf (by rwa [← hcs c hc, h])⟩

end Estree

end EstreeLint
