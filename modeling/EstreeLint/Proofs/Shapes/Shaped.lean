import EstreeLint.Proofs.Estree.Fit
import EstreeLint.Proofs.Sites.Keeps

/-!
The shape of a syntax tree, whether or not the text is without errors: what plays a part in what,
which lists a node has, and where all of it starts.

A value is known to be `Behind` a place `q` where its nodes are shaped and start at `q` or later.
-/

namespace EstreeLint

/-- The condition can be computed. -/
class IsTrue (b : Bool) : Prop where
  eq : b = true

instance : IsTrue true := ⟨rfl⟩

namespace Grammar

variable {α β : Type} {text : Source} {n m : Node} {p q : Nat}

/-! ### What plays a part -/

/-- The name of a tag: a name, one with a namespace, or names with dots between them. -/
inductive TagName : Node → Prop where
  | token {n : Node} {k : TokenKind} (hk : n.kind = .token k) : TagName n
  | spaced {n : Node} (hk : n.kind = .form .jsxNamespacedName) : TagName n
  | dotted {n : Node} (hk : n.kind = .form .propertyAccessExpression)
      (h : ∀ c ∈ n.children, TagName c) : TagName n

/-- What is asked of a node that plays a part. -/
inductive Demand where
  | anything | nothing | token | tagName | propertyName
  | form (f : Form)
deriving DecidableEq

def Demand.Met : Demand → Node → Prop
  | .anything, _ => True
  | .nothing, _ => False
  | .token, n => ∃ k, n.kind = .token k
  | .tagName, n => TagName n
  | .propertyName, n => (∃ k, n.kind = .token k) ∨ n.kind = .form .computedPropertyName
  | .form f, n => n.kind = .form f

/-- What a node of the kind asks of a part. -/
@[reducible] def demand : NodeKind → Role → Demand
  | .token _, _ => .nothing
  | .form .nonNullExpression, .questionDot => .nothing
  | .form .jsxNamespacedName, .heritage => .nothing
  | .form .jsxNamespacedName, _ => .token
  | .form .jsxAttribute, .name => .tagName
  | .form .heritageClause, .element => .form .expressionWithTypeArguments
  | .form .importAttributes, .element => .form .importAttribute
  | .form .importDeclaration, .importClause => .form .importClause
  | .form .shorthandPropertyAssignment, .name => .token
  | _, .tagName => .tagName
  | _, .heritage => .form .heritageClause
  | _, _ => .anything

/-- Forms that hold a list of parts with the role, be it empty. -/
@[reducible] def holdsList : NodeKind → Role → Bool
  | .form .methodDeclaration, .parameter | .form .getAccessor, .parameter
  | .form .setAccessor, .parameter | .form .constructor, .parameter
  | .form .classDeclaration, .member | .form .classExpression, .member
  | .form .interfaceDeclaration, .member | .form .enumDeclaration, .member => true
  | _, _ => false

/-- Declarations that may have words before their keyword. -/
@[reducible] def isDeclaration : NodeKind → Bool
  | .form .variableStatement | .form .functionDeclaration | .form .classDeclaration
  | .form .interfaceDeclaration | .form .typeAliasDeclaration | .form .enumDeclaration
  | .form .moduleDeclaration => true
  | _ => false

/-- A part of a declaration whose keyword starts at `front`: it stands behind the keyword, or is
the keyword itself. -/
inductive Ahead (text : Source) (front : Nat) (m : Node) : Prop where
  | later (h : front + 2 ≤ m.pos)
  | list (hr : m.role = .declarationList) (h : ∀ e ∈ m.partsOf .element, front + 2 ≤ e.pos)
  | word (hr : m.role = .name) (hk : m.kind = .token .identifier)
      (hskip : front ≤ Trivia.skip text m.pos) (hstop : front ≤ m.stop)

/-- Words that have been read one after the other, all of them before `front`. -/
structure InTurn (text : Source) (front : Nat) (ms : List Node) : Prop where
  le_front : ∀ m ∈ ms, Trivia.skip text m.stop ≤ front
  ordered : ms.Pairwise fun a b => Trivia.skip text a.stop ≤ Trivia.skip text b.stop

namespace InTurn

variable {front front' : Nat} {ms : List Node}

lemma mono (h : InTurn text front ms) (hle : front ≤ front') : InTurn text front' ms :=
  ⟨fun m hm => Nat.le_trans (h.le_front m hm) hle, h.ordered⟩

lemma withRole (h : InTurn text front ms) (r : Role) :
    InTurn text front (ms.map (·.withRole r)) := by
  have hstop (m : Node) : (m.withRole r).stop = m.stop := by cases m; rfl
  refine ⟨fun m hm => ?_, ?_⟩
  · obtain ⟨word, hword, rfl⟩ := List.mem_map.1 hm
    rw [hstop]
    exact h.le_front word hword
  · refine List.pairwise_map.2 (h.ordered.imp fun hab => ?_)
    rwa [hstop, hstop]

end InTurn

/-- The keyword of a declaration stands behind its modifiers, and the rest behind the keyword. -/
structure Fronted (text : Source) (front : Nat) (n : Node) : Prop where
  words : InTurn text front (n.partsOf .modifier)
  parts : ∀ m ∈ n.children, m.role ≠ .modifier → Ahead text front m
  lists : ∀ r l, r ≠ .modifier → n.list? r = some l → front + 2 ≤ l.pos

/-- Kinds of node with a name that may stand under a key. -/
@[reducible] def isBinder : NodeKind → Bool
  | .form .bindingElement | .form .importSpecifier | .form .exportSpecifier => true
  | _ => false

/-- A name without a key is a word, which is its own key. -/
def OwnKey (n : Node) : Prop :=
  isBinder n.kind = true → n.part? .propertyName = none →
    ∀ m ∈ n.partsOf .name, ∃ k, m.kind = .token k

/-- Kinds of node that nothing is known of but what plays a part in them. -/
@[reducible] def isUsual : NodeKind → Bool
  | .form .bindingElement | .form .importSpecifier | .form .exportSpecifier
  | .form .arrayBindingPattern => false
  | .form .methodDeclaration | .form .getAccessor | .form .setAccessor | .form .constructor
  | .form .classDeclaration | .form .classExpression | .form .interfaceDeclaration
  | .form .enumDeclaration | .form .variableStatement | .form .functionDeclaration
  | .form .typeAliasDeclaration | .form .moduleDeclaration => false
  | _ => true

/-- There are modifiers, and all of them are words. -/
def Worded (ms : List Node) : Prop := ms ≠ [] ∧ ∀ m ∈ ms, ∃ k, m.kind = .token k

/-! ### Shaped nodes -/

structure Shape (text : Source) (n : Node) : Prop where
  parts : ∀ r, ∀ m ∈ n.partsOf r, (demand n.kind r).Met m
  within : ∀ m ∈ n.children, n.pos ≤ m.pos
  lists : ∀ r l, n.list? r = some l → n.pos ≤ l.pos
  held : ∀ r, holdsList n.kind r = true → (n.list? r).isSome = true
  fronted : isDeclaration n.kind = true → Worded (n.partsOf .modifier) →
    ∃ front, Fronted text front n
  /-- Only in an array a pattern may stand where another binding has its key. -/
  ownKeys : ∀ m ∈ n.children,
    (n.kind = .form .arrayBindingPattern → m.kind ≠ .form .bindingElement) → OwnKey m

/-- The node and all the nodes in it are shaped. -/
def Shaped (text : Source) (n : Node) : Prop := ∀ m ∈ n.nodes, Shape text m

lemma Demand.met_withRole {d : Demand} (r : Role) : d.Met (n.withRole r) ↔ d.Met n := by
  have hkind : (n.withRole r).kind = n.kind := by cases n; rfl
  have hchildren : (n.withRole r).children = n.children := by cases n; rfl
  cases d with
  | tagName =>
    refine ⟨fun h => ?_, fun h => ?_⟩
    · cases h with
      | token hk => exact .token (hkind ▸ hk)
      | spaced hk => exact .spaced (hkind ▸ hk)
      | dotted hk h => exact .dotted (hkind ▸ hk) (hchildren ▸ h)
    · cases h with
      | token hk => exact .token (hkind.trans hk)
      | spaced hk => exact .spaced (hkind.trans hk)
      | dotted hk h => exact .dotted (hkind.trans hk) (hchildren.symm ▸ h)
  | _ => simp only [Met, hkind]

lemma ownKey_withRole (r : Role) : OwnKey (n.withRole r) ↔ OwnKey n := by
  simp only [OwnKey, Tree.kind_withRole, Tree.part?_withRole, Tree.partsOf_withRole]

lemma OwnKey.ofOther (h : isBinder n.kind = false) : OwnKey n := fun hb => by
  rw [h] at hb
  cases hb

namespace Shaped

lemma shape (h : Shaped text n) : Shape text n := h n (Tree.mem_nodes_self n)

lemma of_mem (h : Shaped text n) (hm : m ∈ n.children) : Shaped text m := by
  intro k hk
  refine h k ?_
  rw [Tree.nodes_eq]
  exact List.mem_cons_of_mem _ (Tree.mem_forestNodes.2 ⟨m, hm, hk⟩)

/-- The part that a node plays itself does not matter. -/
lemma withRole (h : Shaped text n) (r : Role) : Shaped text (n.withRole r) := by
  intro m hm
  obtain ⟨l, cs⟩ := n
  rw [Tree.nodes_eq, List.mem_cons] at hm
  rcases hm with rfl | hm
  · obtain ⟨h₁, h₂, h₃, h₄, h₅, h₆⟩ := h.shape
    refine ⟨h₁, h₂, h₃, h₄, fun hd hw => ?_, h₆⟩
    obtain ⟨front, hwords, hparts, hlists⟩ := h₅ hd hw
    exact ⟨front, hwords, hparts, hlists⟩
  · refine h m ?_
    rw [Tree.nodes_eq]
    exact List.mem_cons_of_mem _ hm

end Shaped

/-! ### Values with nodes in them -/

/-- Values that hold nodes, lists and places. -/
class Ranged (α : Type) where
  Holds : Source → Nat → α → Prop
  mono : ∀ {text p q a}, p ≤ q → Holds text q a → Holds text p a

/-- The nodes in the value are shaped and start at `q` or behind it. -/
def From [Ranged α] (text : Source) (q : Nat) (a : α) : Prop := Ranged.Holds text q a

lemma From.mono [Ranged α] {a : α} (hp : p ≤ q) (h : From text q a) : From text p a :=
  Ranged.mono hp h

/-- Values that hold no nodes. -/
class Free (α : Type) extends Ranged α where
  free : ∀ {text q} (a : α), Holds text q a

lemma From.ofFree [Free α] (a : α) : From text q a := Free.free a

/-- A value without nodes. -/
abbrev Free.ofTrue (α : Type) : Free α where
  Holds _ _ _ := True
  mono _ _ := trivial
  free _ := trivial

instance : Free Unit := .ofTrue _

instance : Free Bool := .ofTrue _

instance : Free TokenKind := .ofTrue _

instance : Free String := .ofTrue _

instance : Free State := .ofTrue _

instance : Free ArrowGuess := .ofTrue _

instance : Ranged Nat where
  Holds _ q n := q ≤ n
  mono := Nat.le_trans

/-- The node is shaped and starts at `q` or behind it. -/
structure ShapedFrom (text : Source) (q : Nat) (n : Node) : Prop where
  shaped : Shaped text n
  pos : q ≤ n.pos

instance : Ranged Node where
  Holds text q n := ShapedFrom text q n ∧ OwnKey n
  mono hp h := ⟨⟨h.1.shaped, Nat.le_trans hp h.1.pos⟩, h.2⟩

section Ranged

variable [Ranged α] [Ranged β]

instance : Ranged (List α) where
  Holds text q as := ∀ a ∈ as, From text q a
  mono hp h a ha := From.mono hp (h a ha)

instance : Ranged (Option α) where
  Holds text q o := ∀ a ∈ o, From text q a
  mono hp h a ha := From.mono hp (h a ha)

instance : Ranged (α × β) where
  Holds text q x := From text q x.1 ∧ From text q x.2
  mono hp h := ⟨From.mono hp h.1, From.mono hp h.2⟩

instance : Ranged NodeList where
  Holds text q l := q ≤ l.pos ∧ From text q l.nodes
  mono hp h := ⟨Nat.le_trans hp h.1, From.mono hp h.2⟩

instance : Ranged Part where
  Holds text q
    | .one _ o => From text q o
    | .many _ l => From text q l
    | .data _ => True
  mono {_ _ _ part} hp h := by
    cases part with
    | one => exact From.mono hp h
    | many => exact From.mono hp h
    | data => trivial

end Ranged

/-- Where `Γ` is known, the value stands behind `q`. -/
class Behind [Ranged α] (Γ : Prop) (text : Source) (q : Nat) (a : α) : Prop where
  holds : Γ → From text q a

namespace Behind

variable {Γ Δ : Prop}

instance [Free α] {a : α} : Behind Γ text q a := ⟨fun _ => .ofFree a⟩

variable [Ranged α] [Ranged β] {a : α} {b : β} {as bs : List α} {o : Option α} {r : Role}

instance : Behind (From text q a ∧ Γ) text q a := ⟨And.left⟩

instance [h : Behind Γ text q a] : Behind (Δ ∧ Γ) text q a := ⟨fun hΓ => h.holds hΓ.2⟩

instance [h : Behind Γ text q a] : Behind Γ text q (some a) :=
  ⟨fun hΓ _ hb => Option.some.inj hb ▸ h.holds hΓ⟩

instance : Behind Γ text q (none : Option α) := ⟨fun _ _ => nofun⟩

instance {c : Prop} [Decidable c] {a b : α} [h : Behind Γ text q a] [h' : Behind Γ text q b] :
    Behind Γ text q (if c then a else b) := by
  split
  · exact h
  · exact h'

instance : Behind Γ text q ([] : List α) := ⟨fun _ _ => nofun⟩

instance [h : Behind Γ text q a] [h' : Behind Γ text q as] : Behind Γ text q (a :: as) :=
  ⟨fun hΓ => List.forall_mem_cons.2 ⟨h.holds hΓ, h'.holds hΓ⟩⟩

instance [h : Behind Γ text q as] [h' : Behind Γ text q bs] : Behind Γ text q (as ++ bs) :=
  ⟨fun hΓ => List.forall_mem_append.2 ⟨h.holds hΓ, h'.holds hΓ⟩⟩

instance [h : Behind Γ text q as] : Behind Γ text q as.reverse :=
  ⟨fun hΓ a ha => h.holds hΓ a (List.mem_reverse.1 ha)⟩

instance [h : Behind Γ text q o] : Behind Γ text q o.toList :=
  ⟨fun hΓ a ha => h.holds hΓ a (Option.mem_toList.1 ha)⟩

instance {os : List (Option α)} [h : Behind Γ text q os] : Behind Γ text q (os.filterMap id) :=
  ⟨fun hΓ a ha => by
    obtain ⟨o, ho, rfl⟩ := List.mem_filterMap.1 ha
    exact h.holds hΓ _ ho a rfl⟩

instance [h : Behind Γ text q a] [h' : Behind Γ text q b] : Behind Γ text q (a, b) :=
  ⟨fun hΓ => ⟨h.holds hΓ, h'.holds hΓ⟩⟩

instance {x : α × β} [h : Behind Γ text q x] : Behind Γ text q x.1 := ⟨fun hΓ => (h.holds hΓ).1⟩

instance {x : α × β} [h : Behind Γ text q x] : Behind Γ text q x.2 := ⟨fun hΓ => (h.holds hΓ).2⟩

instance {l : NodeList} [h : Behind Γ text q l] : Behind Γ text q l.nodes :=
  ⟨fun hΓ => (h.holds hΓ).2⟩

instance {ns : List Node} {stop : Nat} {comma : Bool} [hp : Behind Γ text q p]
    [h : Behind Γ text q ns] :
    Behind Γ text q (⟨ns, { pos := p, stop, trailingComma := comma }⟩ : NodeList) :=
  ⟨fun hΓ => ⟨hp.holds hΓ, h.holds hΓ⟩⟩

instance : Behind Γ text q q := ⟨fun _ => Nat.le_refl q⟩

instance {n : Node} [h : Behind Γ text q n] : Behind Γ text q n.pos :=
    ⟨fun hΓ => (h.holds hΓ).1.pos⟩

instance {o : Option Node} [h : Behind Γ text q o] : Behind Γ text q (Part.one r o) := ⟨h.holds⟩

instance {l : NodeList} [h : Behind Γ text q l] : Behind Γ text q (Part.many r l) := ⟨h.holds⟩

instance {ol : Option NodeList} [h : Behind Γ text q ol] :
    Behind Γ text q (Part.optional r ol) := by
  cases ol with
  | none => exact ⟨fun _ _ => nofun⟩
  | some l => exact ⟨fun hΓ => h.holds hΓ l rfl⟩

instance {d : Payload} : Behind Γ text q (Part.data d) := ⟨fun _ => trivial⟩

end Behind

/-! ### A node from its parts -/

/-- The parts are what a node of the kind asks them to be. -/
def Suits (k : NodeKind) (parts : List Part) : Prop :=
  ∀ r, ∀ m ∈ Part.under r parts, (demand k r).Met m

/-- The parts hold the lists that a node of the kind has. -/
def Lists (k : NodeKind) (parts : List Part) : Prop :=
  ∀ r, holdsList k r = true → ∃ l, Part.many r l ∈ parts

lemma Lists.ofUsual {k : NodeKind} {parts : List Part} (h : isUsual k = true) : Lists k parts := by
  intro r hr
  unfold holdsList at hr
  split at hr <;> first | cases hr; done | cases h

lemma Lists.ofNone {k : NodeKind} {parts : List Part} (h : ∀ r, holdsList k r = false) :
    Lists k parts := fun r hr => absurd ((h r).symm.trans hr) Bool.false_ne_true

lemma Lists.ofOne {k : NodeKind} {parts : List Part} (r : Role) (l : NodeList)
    (h : ∀ r', holdsList k r' = true → r' = r) (hl : Part.many r l ∈ parts := by simp) :
    Lists k parts := fun r' hr => h r' hr ▸ ⟨l, hl⟩

lemma not_declaration {k : NodeKind} (h : isUsual k = true) : isDeclaration k = false := by
  unfold isDeclaration
  split <;> first | rfl | cases h

lemma mem_nodes_of_part {part : Part} (h : m ∈ part.nodes) :
    ∃ b ∈ part.bare, ∃ r, part.role? = some r ∧ m = b.withRole r := by
  rw [Part.nodes_eq] at h
  obtain ⟨b, hb, rfl⟩ := List.mem_map.1 h
  cases part with
  | one r o => exact ⟨b, hb, r, rfl, rfl⟩
  | many r l => exact ⟨b, hb, r, rfl, rfl⟩
  | data => cases hb

lemma holds_bare {part : Part} (h : From text q part) : From text q part.bare := by
  cases part with
  | one r o => exact fun m hm => h m (Option.mem_toList.1 hm)
  | many r l => exact h.2
  | data => exact fun _ => nofun

section OfParts

variable {id start stop : Nat} {kind : NodeKind} {flags : NodeFlags} {parts : List Part}

lemma mem_children_ofParts (h : m ∈ (Node.ofParts id kind start stop flags parts).children) :
    ∃ part ∈ parts, ∃ b ∈ part.bare, ∃ r, part.role? = some r ∧ m = b.withRole r := by
  obtain ⟨part, hpart, hm⟩ := List.mem_flatMap.1 h
  exact ⟨part, hpart, mem_nodes_of_part hm⟩

lemma list?_ofParts {r : Role} {l : NodeList}
    (h : (Node.ofParts id kind start stop flags parts).list? r = some l) :
    ∃ l', Part.many r l' ∈ parts ∧ l'.pos = l.pos := by
  obtain ⟨span, hspan, rfl⟩ := Option.map_eq_some_iff.1 h
  obtain ⟨l₁, l₂, hlists, -⟩ := List.lookup_eq_some_iff.1 hspan
  have hmem : (r, span) ∈ parts.filterMap Part.span? := by
    change (r, span) ∈ (Node.ofParts id kind start stop flags parts).label.lists
    rw [hlists]
    simp
  obtain ⟨part, hpart, hsome⟩ := List.mem_filterMap.1 hmem
  cases part with
  | many r' l =>
    obtain ⟨rfl, rfl⟩ := Prod.mk.inj (Option.some.inj hsome)
    exact ⟨l, hpart, rfl⟩
  | one => cases hsome
  | data => cases hsome

lemma isSome_list?_ofParts {r : Role} {l : NodeList} (h : Part.many r l ∈ parts) :
    ((Node.ofParts id kind start stop flags parts).list? r).isSome = true := by
  rw [Tree.list?, Option.isSome_map, Option.isSome_iff_ne_none]
  intro hnone
  have hne := List.lookup_eq_none_iff.1 hnone (r, l.span) (List.mem_filterMap.2 ⟨_, h, rfl⟩)
  simp at hne

/-- **A node whose parts are shaped is shaped.** -/
theorem shaped_ofParts (hparts : ∀ part ∈ parts, ∀ b ∈ part.bare, ShapedFrom text start b)
    (hpos : ∀ r l, Part.many r l ∈ parts → start ≤ l.pos) (hsuits : Suits kind parts)
    (hlists : Lists kind parts)
    (hfronted : isDeclaration kind = true → Worded (Part.under .modifier parts) →
      ∃ front, Fronted text front (Node.ofParts id kind start stop flags parts))
    (hkeys : ∀ part ∈ parts, ∀ b ∈ part.bare,
      (kind = .form .arrayBindingPattern → b.kind ≠ .form .bindingElement) → OwnKey b) :
    ShapedFrom text start (Node.ofParts id kind start stop flags parts) := by
  refine ⟨fun m hm => ?_, Nat.le_refl _⟩
  rw [Tree.nodes_eq, List.mem_cons] at hm
  rcases hm with rfl | hm
  · refine ⟨fun r c hc => ?_, fun c hc => ?_, fun r l hl => ?_, fun r hr => ?_, fun hd hw => ?_,
      fun c hc hk => ?_⟩
    · rw [Node.partsOf_ofParts] at hc
      obtain ⟨c, hmem, rfl⟩ := List.mem_map.1 hc
      exact (Demand.met_withRole r).2 (hsuits r c hmem)
    · obtain ⟨part, hpart, b, hb, r, -, rfl⟩ := mem_children_ofParts hc
      rw [Tree.pos_withRole]
      exact (hparts part hpart b hb).pos
    · obtain ⟨l', hl', hpos'⟩ := list?_ofParts hl
      exact hpos' ▸ hpos _ _ hl'
    · obtain ⟨l, hl⟩ := hlists r hr
      exact isSome_list?_ofParts hl
    · refine hfronted hd ?_
      rw [Node.partsOf_ofParts] at hw
      refine ⟨fun he => hw.1 (by rw [he, List.map_nil]), fun c hc => ?_⟩
      obtain ⟨k, hk⟩ := hw.2 _ (List.mem_map_of_mem hc)
      exact ⟨k, (Tree.kind_withRole c .modifier).symm.trans hk⟩
    · obtain ⟨part, hpart, b, hb, r, -, rfl⟩ := mem_children_ofParts hc
      rw [Tree.kind_withRole] at hk
      exact (ownKey_withRole r).2 (hkeys part hpart b hb hk)
  · obtain ⟨c, hc, hm⟩ := Tree.mem_forestNodes.1 hm
    obtain ⟨part, hpart, b, hb, r, -, rfl⟩ := mem_children_ofParts hc
    exact (hparts part hpart b hb).shaped.withRole r m hm

/-- A node with a name and no key for it. -/
lemma ownKey_ofParts (h : Part.under .propertyName parts = [] →
    ∀ n ∈ Part.under .name parts, ∃ k, n.kind = .token k) :
    OwnKey (Node.ofParts id kind start stop flags parts) := by
  intro _ hkey m hm
  rw [Node.part?_ofParts, Option.map_eq_none_iff, List.head?_eq_none_iff] at hkey
  rw [Node.partsOf_ofParts] at hm
  obtain ⟨n, hn, rfl⟩ := List.mem_map.1 hm
  exact (Tree.kind_withRole n .name).symm ▸ h hkey n hn

lemma holds_ofParts (hparts : From text start parts) (hsuits : Suits kind parts)
    (hlists : Lists kind parts)
    (hfronted : isDeclaration kind = true → Worded (Part.under .modifier parts) →
      ∃ front, Fronted text front (Node.ofParts id kind start stop flags parts))
    (hkey : OwnKey (Node.ofParts id kind start stop flags parts)) :
    From text start (Node.ofParts id kind start stop flags parts) := by
  have hbare {part : Part} (h : part ∈ parts) : From text start part.bare :=
    holds_bare (hparts part h)
  refine ⟨shaped_ofParts (fun part h b hb => (hbare h b hb).1) (fun r l hl => (hparts _ hl).1)
    hsuits hlists hfronted fun part h b hb _ => (hbare h b hb).2, hkey⟩

end OfParts

end Grammar

end EstreeLint
