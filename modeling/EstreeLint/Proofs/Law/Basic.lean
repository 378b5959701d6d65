import EstreeLint.Proofs.Census.Spends
import EstreeLint.Proofs.Estree.Totality

/-!
Laws of a conversion: what holds of every node that the rules make, and of every node that they
hand on.

A law says what is asked for, what may be made of it, and what then holds of the nodes. It has to
bear with what every rule does: making a node over what holds already, widening a range, giving a
binding its type. That the registry goes on does not hurt it.
-/

namespace EstreeLint

namespace Tree

variable {α : Type} {t u v : Tree α}

lemma mem_nodes_of_mem (h : u ∈ t.children) : u ∈ t.nodes := by
  rw [nodes_eq]
  exact List.mem_cons_of_mem _ (mem_descendants_of_mem h)

lemma mem_nodes_trans (hu : u ∈ t.nodes) (hv : v ∈ u.nodes) : v ∈ t.nodes := by
  rw [nodes_eq, List.mem_cons] at hu hv ⊢
  rcases hu with rfl | hu
  · exact hv
  · rcases hv with rfl | hv
    · exact .inr hu
    · exact .inr (mem_descendants_trans hu hv)

end Tree

namespace Estree

variable {file : SourceFile}

/-! ### The registry on the way -/

/-- The forms of a link in a chain. -/
def linkForms : List Form :=
  [.propertyAccessExpression, .elementAccessExpression, .callExpression, .nonNullExpression]

/-- The operator of a node. -/
def operator? (n : Node) : Option TokenKind := (n.part? .operator).bind (·.token?)

/-- What is made of the syntax node may be taken up into what is made of the node above it. -/
def TakenUp (n : Node) : Prop :=
  (∃ f ∈ linkForms, n.kind = .form f) ∨
    n.kind = .form .binaryExpression ∧ operator? n = some .comma

/-- The number is that of a syntax node in the file whose answer may change. -/
def Mobile (file : SourceFile) (x : Nat) : Prop := ∃ n ∈ file.root.nodes, n.index = x ∧ TakenUp n

namespace Registry

variable {r s t : Registry} {native : Option Nat} {d k i m : Nat}

/-- A registry and what comes of it: where numbers come from stays, and so do the answers for all
syntax nodes but those that are taken up. -/
structure Before (file : SourceFile) (r s : Registry) : Prop where
  natives : r.natives <+: s.natives
  answers : ∀ x i, ¬ Mobile file x → r.convertedOf? x = some i → s.convertedOf? x = some i

/-- A number that answers for a syntax node comes from it, unless the node is taken up. -/
structure Kept (file : SourceFile) (r : Registry) : Prop where
  carries : r.Carries
  comes : ∀ x i, r.convertedOf? x = some i → r.nativeOf? i = some x ∨ Mobile file x

namespace Before

lemma refl (r : Registry) : Before file r r := ⟨List.prefix_rfl, fun _ _ _ h => h⟩

lemma trans (h : Before file r s) (h' : Before file s t) : Before file r t :=
  ⟨h.natives.trans h'.natives, fun x i hx hi => h'.answers x i hx (h.answers x i hx hi)⟩

lemma size_le (h : Before file r s) : r.size ≤ s.size := h.natives.length_le

lemma nativeOf? (h : Before file r s) (hi : i < r.size) : s.nativeOf? i = r.nativeOf? i := by
  obtain ⟨later, hlater⟩ := h.natives
  rw [Registry.nativeOf?, Registry.nativeOf?, ← hlater, List.getElem?_append_left hi]

lemma next (native : Option Nat) : Before file r (r.next native).2 where
  natives := List.prefix_append ..
  answers x i _ hi := by
    rw [convertedOf?_next, if_neg (by simp [hi])]
    exact hi

end Before

lemma kept_empty : Kept file {} := ⟨carries_empty, nofun⟩

lemma Kept.next (h : Kept file r) (native : Option Nat) : Kept file (r.next native).2 where
  carries := h.carries.next
  comes x i hi := by
    rw [nativeOf?_next]
    rw [convertedOf?_next] at hi
    split at hi
    · next hnew =>
      left
      rw [← Option.some.inj hi, if_pos rfl, hnew.1]
    · refine (h.comes x i hi).imp_left fun hnative => ?_
      rwa [if_neg (Nat.ne_of_lt (lt_size_of_nativeOf? hnative))]

/-- A redirection from a number of a syntax node that is taken up. -/
lemma redirect_kept (h : Kept file r) (hd : ∀ x, r.nativeOf? d = some x → Mobile file x)
    (hk : (r.nativeOf? k).isSome = true) :
    Before file r (r.redirect d k) ∧ Kept file (r.redirect d k) := by
  have hsame (i : Nat) : (r.redirect d k).nativeOf? i = r.nativeOf? i := by
    rw [nativeOf?_redirect, if_neg]
    rintro ⟨-, -, hnone⟩
    rw [hnone] at hk
    cases hk
  have hmoved (x : Nat) (hx : r.convertedOf? x = some d) : Mobile file x :=
    (h.comes x d hx).elim (hd x) id
  refine ⟨⟨?_, fun x i hx hi => ?_⟩, h.carries.redirect, fun x i hi => ?_⟩
  · rw [natives_redirect]
    cases r.nativeOf? d with
    | none => exact List.prefix_rfl
    | some n =>
      have hne : ¬ (r.natives[k]? == some none) = true := by
        rw [beq_iff_eq, getElem?_natives_eq_iff]
        rintro ⟨-, hnone⟩
        rw [hnone] at hk
        cases hk
      simp only [Option.elim, if_neg hne]
      exact List.prefix_rfl
  · rw [convertedOf?_redirect h.carries, if_neg]
    · exact hi
    · exact fun hxd => hx (hmoved x hxd)
  · rw [hsame]
    rw [convertedOf?_redirect h.carries] at hi
    split at hi
    · next hxd => exact .inr (hmoved x hxd)
    · exact h.comes x i hi

end Registry

/-! ### Laws -/

/-- Types that are made of a node at once, whatever is made of its parts. -/
@[reducible] def isPlain : NodeType → Bool
  | .memberExpression | .callExpression | .tsNonNullExpression | .chainExpression
  | .sequenceExpression => false
  | _ => true

/-- Types of node that are changed after they were made. -/
def isEdited (t : NodeType) : Bool :=
  Convert.isBindingType t || t == .tsParameterProperty || t == .tsNamedTupleMember ||
    t == .expressionStatement

/-- What a law speaks of. -/
structure Terms (file : SourceFile) where
  /-- No node starts before. -/
  first : Nat := 0
  /-- What may be converted, as a target or not. -/
  asks : (isTarget : Bool) → Node → Prop
  /-- What is read as a part, not as a target. -/
  inner : Node → Prop
  /-- What may be made of a syntax node, or of none. -/
  makes : Option Nat → NodeType → Prop
  /-- What holds of every node. -/
  node : Registry → EsNode → Prop
  /-- What holds of a node that is handed on. -/
  bare : Registry → EsNode → Prop

/-- What is known of every node in a converted tree. -/
structure Noted (T : Terms file) (r : Registry) (m : EsNode) : Prop where
  lt_size : m.id < r.size
  start : T.first ≤ m.range.start
  chain : m.type = .chainExpression → ∃ c x, m.children = [c] ∧ c.field = .expression ∧
    r.nativeOf? m.id = some x ∧ r.nativeOf? c.id = some x ∧ Mobile file x
  sequence : m.type = .sequenceExpression → ∃ x, r.nativeOf? m.id = some x ∧ Mobile file x
  edited : isEdited m.type = true → T.makes (r.nativeOf? m.id) m.type
  node : T.node r m

/-- The law holds throughout the tree, and its root may be handed on. -/
structure Terms.Good (T : Terms file) (r : Registry) (a : EsNode) : Prop where
  noted : ∀ m ∈ a.nodes, Noted T r m
  bare : T.bare r a

/-- A part that is read: where it stands, and its lists other than that of its modifiers. -/
structure Spotted (T : Terms file) (n : Node) : Prop where
  mem : n ∈ file.root.nodes
  pos : T.first ≤ n.pos - 2
  start : T.first ≤ file.startOf n
  stop : T.first ≤ n.stop
  list : ∀ r l, r ≠ .modifier → n.list? r = some l → T.first ≤ l.pos - 1

/-- Nodes that the rule for a node above makes something of. -/
inductive Inlined (file : SourceFile) : Node → Prop where
  | token {m : Node} {k : TokenKind} (hk : m.kind = .token k) : Inlined file m
  | tag {n m : Node} (hn : n ∈ file.root.nodes) (hm : m ∈ n.partsOf .tagName) : Inlined file m
  | dotted {n m : Node} (hn : Inlined file n) (hk : n.kind = .form .propertyAccessExpression)
      (hm : m ∈ n.children) : Inlined file m
  | spaced {n m : Node} (hn : n ∈ file.root.nodes) (hk : n.kind = .form .jsxNamespacedName)
      (hm : m ∈ n.children) : Inlined file m
  | attributeName {n m : Node} (hn : n ∈ file.root.nodes) (hk : n.kind = .form .jsxAttribute)
      (hm : m ∈ n.partsOf .name) : Inlined file m
  | entry {n m : Node} (hn : n ∈ file.root.nodes) (hk : n.kind = .form .importAttributes)
      (hm : m ∈ n.partsOf .element) : Inlined file m
  | heritage {n c m : Node} (hn : n ∈ file.root.nodes) (hc : c ∈ n.partsOf .heritage)
      (hm : m ∈ c.partsOf .element) : Inlined file m

/-- The roles of parts that a node of the kind does not assign to. The body of a namespace is left
out as well: where it is a namespace again, only its name and its body are read. -/
@[reducible] def isQuiet (k : NodeKind) : Role → Bool
  | .left | .initializer =>
    k == .form .propertyAccessExpression || k == .form .jsxNamespacedName
  | .body => k != .form .moduleDeclaration
  | _ => true

/-- Terms that ask nothing of where a range starts let it start with the text. -/
lemma Terms.zero_le (file : SourceFile) : 0 ≤ Text.bytes file.text := Nat.zero_le _

/-- Terms that the rules keep to. -/
structure Law (file : SourceFile) extends Terms file where
  first_le : first ≤ Text.bytes file.text
  /-- The field that a node stands in does not matter. -/
  node_inField : ∀ {r m} f, node r m → node r (m.inField f)
  bare_inField : ∀ {r m} f, bare r m → bare r (m.inField f)
  /-- The registry may go on. -/
  node_later : ∀ {r s m}, r.Before file s → (∀ k ∈ m.nodes, k.id < r.size) → node r m → node s m
  bare_later : ∀ {r s m}, r.Before file s → (∀ k ∈ m.nodes, k.id < r.size) → bare r m → bare s m
  /-- What may be made over nodes that may be handed on may be handed on. -/
  made : ∀ {r m}, makes (r.nativeOf? m.id) m.type → m.type ≠ .chainExpression →
    (∀ c ∈ m.children, toTerms.Good r c) → node r m ∧ bare r m
  /-- A node that is changed, or taken apart, is made of nodes that may be handed on. -/
  children : ∀ {r m}, isEdited m.type = true ∨ m.type = .sequenceExpression → node r m →
    ∀ c ∈ m.children, bare r c
  synthetic : ∀ {t}, isPlain t = true → makes none t
  inner_asks : ∀ {n}, inner n → asks false n
  inner_binds : ∀ {n}, inner n → Grammar.Binds n → asks true n
  inner_part : ∀ {n r m}, inner n → isQuiet n.kind r = true → m ∈ n.partsOf r → inner m
  inner_spotted : ∀ {n}, inner n → Spotted toTerms n
  inlined : ∀ {n t}, inner n → Inlined file n → isPlain t = true → makes (some n.index) t

/-! ### Good nodes -/

namespace Noted

variable {L : Law file} {r s : Registry} {a m : EsNode}

lemma later (h : Noted L.toTerms r m) (hrs : r.Before file s)
    (hbelow : ∀ k ∈ m.nodes, k.id < r.size) : Noted L.toTerms s m := by
  obtain ⟨hlt, hstart, hchain, hsequence, hedited, hnode⟩ := h
  refine ⟨Nat.lt_of_lt_of_le hlt hrs.size_le, hstart, fun ht => ?_, fun ht => ?_, ?_,
    L.node_later hrs hbelow hnode⟩
  · obtain ⟨c, x, hcs, hf, hm', hc, hx⟩ := hchain ht
    have hlt' : c.id < r.size := hbelow c (Tree.mem_nodes_of_mem (hcs ▸ List.mem_singleton_self c))
    exact ⟨c, x, hcs, hf, (hrs.nativeOf? hlt).trans hm', (hrs.nativeOf? hlt').trans hc, hx⟩
  · rw [hrs.nativeOf? hlt]
    exact hsequence ht
  · rwa [hrs.nativeOf? hlt]

lemma inField (h : ∀ m ∈ a.nodes, Noted L.toTerms r m) (f : Field) :
    ∀ m ∈ (a.inField f).nodes, Noted L.toTerms r m := by
  intro m hm
  obtain ⟨l, cs⟩ := a
  rw [Tree.nodes_eq, List.mem_cons] at hm
  rcases hm with rfl | hm
  · obtain ⟨h₁, h₂, h₃, h₄, h₅, h₆⟩ := h _ (Tree.mem_nodes_self _)
    exact ⟨h₁, h₂, h₃, h₄, h₅, L.node_inField f h₆⟩
  · refine h m ?_
    rw [Tree.nodes_eq]
    exact List.mem_cons_of_mem _ hm

end Noted

namespace Terms.Good

variable {T : Terms file} {L : Law file} {r s : Registry} {a c m : EsNode}

lemma root (h : T.Good r a) : Noted T r a := h.noted a (Tree.mem_nodes_self a)

lemma lt_size (h : T.Good r a) : ∀ k ∈ a.nodes, k.id < r.size := fun k hk => (h.noted k hk).lt_size

lemma later (h : L.Good r a) (hrs : r.Before file s) : L.Good s a where
  noted m hm := (h.noted m hm).later hrs fun k hk => h.lt_size k (Tree.mem_nodes_trans hm hk)
  bare := L.bare_later hrs h.lt_size h.bare

lemma child (h : T.Good r a) (hc : c ∈ a.children) (hb : T.bare r c) : T.Good r c :=
  ⟨fun m hm => h.noted m (Tree.mem_nodes_trans (Tree.mem_nodes_of_mem hc) hm), hb⟩

lemma children (h : L.Good r a) (ht : isEdited a.type = true ∨ a.type = .sequenceExpression) :
    ∀ c ∈ a.children, L.Good r c :=
  fun c hc => h.child hc (L.children ht h.root.node c hc)

lemma inField (h : L.Good r a) (f : Field) : L.Good r (a.inField f) where
  noted := Noted.inField h.noted f
  bare := L.bare_inField f h.bare

/-- A node whose children are good, once it keeps to the law itself. -/
lemma ofNode (hlt : m.id < r.size) (hstart : T.first ≤ m.range.start)
    (hchain : m.type = .chainExpression → ∃ c x, m.children = [c] ∧ c.field = .expression ∧
      r.nativeOf? m.id = some x ∧ r.nativeOf? c.id = some x ∧ Mobile file x)
    (hsequence : m.type = .sequenceExpression → ∃ x, r.nativeOf? m.id = some x ∧ Mobile file x)
    (hedited : isEdited m.type = true → T.makes (r.nativeOf? m.id) m.type)
    (hnode : T.node r m ∧ T.bare r m) (hcs : ∀ c ∈ m.children, ∀ k ∈ c.nodes, Noted T r k) :
    T.Good r m where
  noted := Tree.forall_mem_nodes.2 ⟨⟨hlt, hstart, hchain, hsequence, hedited, hnode.1⟩, hcs⟩
  bare := hnode.2

/-- A node over nodes that may be handed on. -/
lemma atop (hlt : m.id < r.size) (hstart : L.first ≤ m.range.start)
    (hmakes : L.makes (r.nativeOf? m.id) m.type) (hchain : m.type ≠ .chainExpression)
    (hsequence : m.type = .sequenceExpression → ∃ x, r.nativeOf? m.id = some x ∧ Mobile file x)
    (hcs : ∀ c ∈ m.children, L.Good r c) : L.Good r m :=
  .ofNode hlt hstart (fun h => absurd h hchain) hsequence (fun _ => hmakes)
    (L.made hmakes hchain hcs) fun c hc => (hcs c hc).noted

/-- A node that has been changed, with its number and its type as they were. -/
lemma edit (h : L.Good r a) (ht : isEdited a.type = true) (hid : m.id = a.id)
    (htype : m.type = a.type) (hstart : L.first ≤ m.range.start)
    (hcs : ∀ c ∈ m.children, L.Good r c) : L.Good r m := by
  have hmakes := h.root.edited ht
  refine atop (hid ▸ h.root.lt_size) hstart (by rwa [hid, htype]) (fun hc => ?_) (fun hc => ?_) hcs
  all_goals
    rw [← htype, hc] at ht
    cases ht

end Terms.Good

/-! ### Values and what is known of them -/

/-- Values that hold converted nodes and offsets. -/
class Carrier (α : Type) where
  Good {file : SourceFile} : Law file → Registry → α → Prop
  later {file : SourceFile} {L : Law file} {r s : Registry} {a : α} :
    r.Before file s → Good L r a → Good L s a

export Carrier (Good)

instance : Carrier EsNode where
  Good L r a := L.toTerms.Good r a
  later hrs h := h.later hrs

section Carriers

variable {α β : Type} [Carrier α] [Carrier β]

instance : Carrier (List α) where
  Good L r as := ∀ a ∈ as, Good L r a
  later hrs h a ha := Carrier.later hrs (h a ha)

instance : Carrier (Option α) where
  Good L r o := ∀ a ∈ o, Good L r a
  later hrs h a ha := Carrier.later hrs (h a ha)

instance : Carrier (α × β) where
  Good L r x := Good L r x.1 ∧ Good L r x.2
  later hrs h := ⟨Carrier.later hrs h.1, Carrier.later hrs h.2⟩

instance : Carrier Span where
  Good L _ r := L.first ≤ r.start
  later _ h := h

instance : Carrier Nat := ⟨fun L _ p => L.first ≤ p, fun _ h => h⟩

instance : Carrier Unit := ⟨fun _ _ _ => True, fun _ _ => trivial⟩

instance : Carrier Bool := ⟨fun _ _ _ => True, fun _ _ => trivial⟩

instance : Carrier String := ⟨fun _ _ _ => True, fun _ _ => trivial⟩

instance : Carrier TokenKind := ⟨fun _ _ _ => True, fun _ _ => trivial⟩

instance : Carrier Convert.Signature where
  Good L r s := Good L r s.typeParameters ∧ Good L r s.params ∧ Good L r s.returnType
  later hrs h := ⟨Carrier.later hrs h.1, Carrier.later hrs h.2.1, Carrier.later hrs h.2.2⟩

instance : Carrier Convert.Heritage where
  Good L r h := Good L r h.superClass ∧ Good L r h.superTypeArguments ∧ Good L r h.implements
  later hrs h := ⟨Carrier.later hrs h.1, Carrier.later hrs h.2.1, Carrier.later hrs h.2.2⟩

end Carriers

/-- What is known at a step, and stays known. -/
structure Facts (file : SourceFile) where
  holds : Registry → Prop
  later : ∀ {r s}, r.Before file s → holds r → holds s

namespace Facts

/-- Nothing. -/
def none : Facts file := ⟨fun _ => True, fun _ h => h⟩

/-- A fact that does not hang on the registry. -/
def fact (p : Prop) : Facts file := ⟨fun _ => p, fun _ h => h⟩

/-- A value is good. -/
def good {α : Type} [Carrier α] (L : Law file) (a : α) : Facts file :=
  ⟨fun r => Good L r a, Carrier.later⟩

/-- The nodes in the parts of a node under construction are good. -/
def parts (L : Law file) (ps : List Part) : Facts file where
  holds r := PartsHold (L.toTerms.Good r) ps
  later hrs h c hc := (h c hc).later hrs

/-- The number is that of a node that comes from a syntax node. -/
def comes (i x : Nat) : Facts file where
  holds r := r.nativeOf? i = some x
  later hrs h := (hrs.nativeOf? (Registry.lt_size_of_nativeOf? h)).trans h

def both (Γ Δ : Facts file) : Facts file where
  holds r := Γ.holds r ∧ Δ.holds r
  later hrs h := ⟨Γ.later hrs h.1, Δ.later hrs h.2⟩

end Facts

/-- What is known tells something else. -/
class Entails (Γ Δ : Facts file) : Prop where
  of {r : Registry} : Γ.holds r → Δ.holds r

/-- The condition can be computed. -/
class IsTrue (b : Bool) : Prop where
  eq : b = true

instance : IsTrue true := ⟨rfl⟩

section Entails

variable {Γ Δ Θ : Facts file}

instance : Entails (Δ.both Γ) Δ := ⟨And.left⟩

instance [h : Entails Γ Δ] : Entails (Θ.both Γ) Δ := ⟨fun x => h.of x.2⟩

end Entails

end Estree

end EstreeLint
