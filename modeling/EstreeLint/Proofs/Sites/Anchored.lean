import EstreeLint.Proofs.Sites.Fronts
import EstreeLint.Proofs.Token.Cut

/-!
Nodes that are anchored in the text.

Their bounds are cuts, and so are the bounds of what the tree does not keep of them but the tokens
show: the delimiter before a list, the mark before a declared type, and the braces around nothing.
Where an error has been reported such a token may be missing, so these hold of a parse that is
clean.
-/

namespace EstreeLint.Grammar

open Text (IsCut)

variable {text : Source} {clean : Prop} {kind : NodeKind} {n : Node}

/-- Bytes of the mark before the type that a node declares: a colon, or the arrow of a function
type. -/
def markWidth (k : NodeKind) : Nat :=
  if k == .form .functionType || k == .form .constructorType then 2 else 1

/-- The parts with a role are a list right behind a delimiter of one byte. -/
def opensList (k : NodeKind) : Role → Bool
  | .typeParameter | .typeArgument => true
  | .parameter => k != .form .arrowFunction
  | .member => k != .form .mappedType
  | _ => false

/-- What a node must be to play a part. -/
def RoleFits (text : Source) (clean : Prop) (k : NodeKind) : Role → Node → Prop
  | .parameter, n => n.isForm .parameter = true
  | .variableDeclaration, n => n.isForm .variableDeclaration = true
  | .declaredType, n => clean → IsCut text (n.pos - markWidth k)
  | _, _ => True

/-- A pair of braces around nothing, behind trivia that stops inside the node. -/
structure Braces (text : Source) (n : Node) : Prop where
  pos_lt : n.pos < n.stop
  skip_le : Trivia.skip text n.pos ≤ n.stop
  inner_start : IsCut text (Trivia.skip text n.pos + 1)
  inner_stop : IsCut text (n.stop - 1)

/-- A delimiter of one byte stands before the list. -/
def Delimited (text : Source) (clean : Prop) (l : NodeList) : Prop := clean → IsCut text (l.pos - 1)

structure Anchored (text : Source) (clean : Prop) (n : Node) : Prop where
  pos : IsCut text n.pos
  stop : IsCut text n.stop
  role : ∀ r, ∀ m ∈ n.partsOf r, RoleFits text clean n.kind r m
  lists : ∀ r l, n.list? r = some l →
    IsCut text l.stop ∧ (opensList n.kind r = true → Delimited text clean l)
  named : n.isForm .parameter = true ∨ n.isForm .variableDeclaration = true →
    ∃ m, n.part? .name = some m ∧ Binds m
  braces : clean → n.isForm .jsxExpression = true → n.part? .expression = none → Braces text n

/-- The node and all the nodes in it are anchored. -/
def Sited (text : Source) (clean : Prop) (n : Node) : Prop := ∀ m ∈ n.nodes, Anchored text clean m

namespace Sited

lemma anchored (h : Sited text clean n) : Anchored text clean n := h n (Tree.mem_nodes_self n)

lemma of_mem {m : Node} (h : Sited text clean n) (hm : m ∈ n.children) : Sited text clean m := by
  intro k hk
  refine h k ?_
  rw [Tree.nodes_eq]
  exact List.mem_cons_of_mem _ (Tree.mem_forestNodes.2 ⟨m, hm, hk⟩)

lemma of_partsOf {r : Role} {m : Node} (h : Sited text clean n) (hm : m ∈ n.partsOf r) :
    Sited text clean m := h.of_mem (List.mem_filter.1 hm).1

lemma of_part? {r : Role} {m : Node} (h : Sited text clean n) (hm : n.part? r = some m) :
    Sited text clean m := h.of_mem (List.mem_of_find?_eq_some hm)

/-- The part that a node plays itself does not matter. -/
lemma withRole (h : Sited text clean n) (r : Role) : Sited text clean (n.withRole r) := by
  intro m hm
  rw [Tree.nodes_eq, List.mem_cons] at hm
  rcases hm with rfl | hm
  · obtain ⟨hpos, hstop, hrole, hlists, hnamed, hbraces⟩ := h.anchored
    cases n
    refine ⟨hpos, hstop, hrole, hlists, hnamed, fun hc hform hnone => ?_⟩
    obtain ⟨h₁, h₂, h₃, h₄⟩ := hbraces hc hform hnone
    exact ⟨h₁, h₂, h₃, h₄⟩
  · refine h m ?_
    rw [Tree.nodes_eq]
    refine List.mem_cons_of_mem _ ?_
    cases n
    exact hm

end Sited

/-! ### Lists and options -/

/-- The nodes in a list are as they should be, and it stops at a cut. -/
structure ListOf (text : Source) (ok : Node → Prop) (l : NodeList) : Prop where
  nodes : ∀ n ∈ l.nodes, ok n
  stop : IsCut text l.stop

abbrev SitedList (text : Source) (clean : Prop) (l : NodeList) : Prop :=
  ListOf text (Sited text clean) l

/-- A mark of the given width stands before the node. -/
def Marked (text : Source) (clean : Prop) (width : Nat) (n : Node) : Prop :=
  clean → IsCut text (n.pos - width)

/-- What is there has the property. -/
def IfAny {α : Type} (P : α → Prop) (o : Option α) : Prop := ∀ a, o = some a → P a

section IfAny

variable {α : Type} {P Q : α → Prop} {a : α} {o : Option α}

@[simp] lemma ifAny_none : IfAny P none := fun _ h => by cases h

@[simp] lemma ifAny_some : IfAny P (some a) ↔ P a :=
  ⟨fun h => h a rfl, fun h _ hb => Option.some.inj hb ▸ h⟩

@[simp] lemma ifAny_true : IfAny (fun _ : α => True) o := fun _ _ => trivial

@[simp] lemma ifAny_and : IfAny (fun a => P a ∧ Q a) o ↔ IfAny P o ∧ IfAny Q o :=
  ⟨fun h => ⟨fun a ha => (h a ha).1, fun a ha => (h a ha).2⟩, fun h a ha => ⟨h.1 a ha, h.2 a ha⟩⟩

end IfAny

/-! ### Parts -/

/-- What a list of nodes must be to play a part. -/
structure ListFits (text : Source) (clean : Prop) (k : NodeKind) (r : Role) (l : NodeList) :
    Prop where
  role : ∀ n ∈ l.nodes, RoleFits text clean k r n
  opened : opensList k r = true → Delimited text clean l

/-- A part of a node of the given kind that is anchored. -/
def PartFits (text : Source) (clean : Prop) (k : NodeKind) : Part → Prop
  | .one r n => IfAny (Sited text clean) n ∧ IfAny (RoleFits text clean k r) n
  | .many r l => SitedList text clean l ∧ ListFits text clean k r l
  | .data _ => True

namespace PartFits

variable {r : Role} {o : Option Node} {l : NodeList} {p : Payload} {ol : Option NodeList}

@[simp] lemma one : PartFits text clean kind (.one r o) ↔
    IfAny (Sited text clean) o ∧ IfAny (RoleFits text clean kind r) o := Iff.rfl

@[simp] lemma many : PartFits text clean kind (.many r l) ↔
    SitedList text clean l ∧ ListFits text clean kind r l := Iff.rfl

@[simp] lemma data : PartFits text clean kind (.data p) := trivial

@[simp] lemma optional : PartFits text clean kind (.optional r ol) ↔
    IfAny (SitedList text clean) ol ∧ IfAny (ListFits text clean kind r) ol := by
  cases ol <;> simp [Part.optional]

lemma bare {part : Part} (h : PartFits text clean kind part) :
    ∀ n ∈ part.bare, Sited text clean n ∧ ∀ r, part.role? = some r →
      RoleFits text clean kind r n := by
  intro n hn
  cases part with
  | one r o =>
    obtain rfl : o = some n := by simpa [Part.bare] using hn
    exact ⟨h.1 n rfl, fun r' hr => Option.some.inj hr ▸ h.2 n rfl⟩
  | many r l => exact ⟨h.1.nodes n hn, fun r' hr => Option.some.inj hr ▸ h.2.role n hn⟩
  | data p => cases hn

end PartFits

/-- Parts of a node of the given kind that are anchored. -/
def PartsFit (text : Source) (clean : Prop) (k : NodeKind) (parts : List Part) : Prop :=
  ∀ part ∈ parts, PartFits text clean k part

namespace PartsFit

variable {part : Part} {parts parts' : List Part}

@[simp] lemma nil : PartsFit text clean kind [] := by simp [PartsFit]

@[simp] lemma cons : PartsFit text clean kind (part :: parts) ↔
    PartFits text clean kind part ∧ PartsFit text clean kind parts := List.forall_mem_cons

@[simp] lemma append : PartsFit text clean kind (parts ++ parts') ↔
    PartsFit text clean kind parts ∧ PartsFit text clean kind parts' := List.forall_mem_append

end PartsFit

/-- The roles that ask something of what plays them. -/
def askingRoles : List Role :=
  [.parameter, .variableDeclaration, .declaredType, .typeParameter, .typeArgument, .member]

section Plain

variable {r : Role} (h : r ∉ askingRoles)

include h

@[simp] lemma roleFits_plain : RoleFits text clean kind r n := by
  cases r <;> first | exact trivial | exact absurd h (by decide)

lemma opensList_plain : opensList kind r = false := by
  cases r <;> first | rfl | exact absurd h (by decide)

@[simp] lemma ifAny_roleFits {o : Option Node} : IfAny (RoleFits text clean kind r) o :=
  fun _ _ => roleFits_plain h

@[simp] lemma listFits_plain {l : NodeList} : ListFits text clean kind r l where
  role _ _ := roleFits_plain h
  opened ho := by
    rw [opensList_plain h] at ho
    cases ho

@[simp] lemma ifAny_listFits {o : Option NodeList} : IfAny (ListFits text clean kind r) o :=
  fun _ _ => listFits_plain h

end Plain

/-- A list of type parameters or of type arguments. -/
lemma listFits_angles {r : Role} {l : NodeList} (h : r = .typeParameter ∨ r = .typeArgument) :
    ListFits text clean kind r l ↔ Delimited text clean l := by
  rcases h with rfl | rfl <;>
    exact ⟨fun h => h.opened rfl, fun h => ⟨fun _ _ => trivial, fun _ => h⟩⟩

@[simp] lemma listFits_typeArgument {l : NodeList} :
    ListFits text clean kind .typeArgument l ↔ Delimited text clean l := listFits_angles (.inr rfl)

@[simp] lemma ifAny_typeParameter {o : Option NodeList} :
    IfAny (ListFits text clean kind .typeParameter) o ↔ IfAny (Delimited text clean) o :=
  forall₂_congr fun _ _ => listFits_angles (.inl rfl)

@[simp] lemma ifAny_typeArgument {o : Option NodeList} :
    IfAny (ListFits text clean kind .typeArgument) o ↔ IfAny (Delimited text clean) o :=
  forall₂_congr fun _ _ => listFits_typeArgument

@[simp] lemma ifAny_declaredType {o : Option Node} :
    IfAny (RoleFits text clean kind .declaredType) o ↔
      IfAny (Marked text clean (markWidth kind)) o := Iff.rfl

@[simp] lemma roleFits_declaredType : RoleFits text clean kind .declaredType n ↔
    Marked text clean (markWidth kind) n := Iff.rfl

@[simp] lemma roleFits_typeParameter : RoleFits text clean kind .typeParameter n := trivial

/-- All the nodes in the list are parameters. -/
def AllParameters (l : NodeList) : Prop := ∀ n ∈ l.nodes, n.isForm .parameter = true

@[simp] lemma listFits_parameter {l : NodeList} : ListFits text clean kind .parameter l ↔
    AllParameters l ∧ (kind ≠ .form .arrowFunction → Delimited text clean l) :=
  ⟨fun h => ⟨h.role, fun hk => h.opened (by simpa [opensList] using hk)⟩,
    fun h => ⟨h.1, fun ho => h.2 (by simpa [opensList] using ho)⟩⟩

@[simp] lemma listFits_member {l : NodeList} : ListFits text clean kind .member l ↔
    (kind ≠ .form .mappedType → Delimited text clean l) :=
  ⟨fun h hk => h.opened (by simpa [opensList] using hk),
    fun h => ⟨fun _ _ => trivial, fun ho => h (by simpa [opensList] using ho)⟩⟩

@[simp] lemma markWidth_colon {form : Form} (h₁ : form ≠ .functionType)
    (h₂ : form ≠ .constructorType) : markWidth (.form form) = 1 := by
  simp [markWidth, h₁, h₂]

/-! ### A node from its parts -/

lemma mem_under {r : Role} {parts : List Part} (h : n ∈ Part.under r parts) :
    ∃ part ∈ parts, part.role? = some r ∧ n ∈ part.bare := by
  induction parts with
  | nil => cases h
  | cons part parts ih =>
    rw [Part.under_cons, List.mem_append] at h
    rcases h with h | h
    · split at h
      · exact ⟨part, List.mem_cons_self .., ‹_›, h⟩
      · cases h
    · obtain ⟨part', hpart, hr⟩ := ih h
      exact ⟨part', List.mem_cons_of_mem _ hpart, hr⟩

lemma roleFits_withRole (r r' : Role) :
    RoleFits text clean kind r (n.withRole r') ↔ RoleFits text clean kind r n := by
  cases n
  cases r <;> exact Iff.rfl

/-- **A node whose parts are anchored is anchored.** -/
theorem sited_ofParts {id pos stop : Nat} {flags : NodeFlags} {parts : List Part}
    (hpos : IsCut text pos) (hstop : IsCut text stop)
    (hparts : PartsFit text clean kind parts)
    (hnamed : kind = .form .parameter ∨ kind = .form .variableDeclaration →
      ∃ m, (Part.under .name parts).head? = some m ∧ Binds m)
    (hbraces : clean → kind = .form .jsxExpression → Part.under .expression parts = [] →
      Braces text (Node.ofParts id kind pos stop flags parts)) :
    Sited text clean (Node.ofParts id kind pos stop flags parts) := by
  intro m hm
  rw [Tree.nodes_eq, List.mem_cons] at hm
  rcases hm with rfl | hm
  · refine ⟨hpos, hstop, fun r c hc => ?_, fun r l hl => ?_, fun h => ?_,
      fun hc hform hnone => ?_⟩
    · rw [Node.partsOf_ofParts] at hc
      obtain ⟨c, hmem, rfl⟩ := List.mem_map.1 hc
      obtain ⟨part, hpart, hr, hbare⟩ := mem_under hmem
      exact (roleFits_withRole r r).2 (((hparts part hpart).bare c hbare).2 r hr)
    · obtain ⟨span, hspan, rfl⟩ := Option.map_eq_some_iff.1 hl
      obtain ⟨l₁, l₂, hlists, -⟩ := List.lookup_eq_some_iff.1 hspan
      have hmem : (r, span) ∈ parts.filterMap Part.span? := by
        change (r, span) ∈ (Node.ofParts id kind pos stop flags parts).label.lists
        rw [hlists]
        simp
      obtain ⟨part, hpart, hsome⟩ := List.mem_filterMap.1 hmem
      have hfits := hparts part hpart
      cases part with
      | many r' l =>
        obtain ⟨rfl, rfl⟩ := Prod.mk.inj (Option.some.inj hsome)
        exact ⟨hfits.1.stop, hfits.2.opened⟩
      | one => cases hsome
      | data => cases hsome
    · obtain ⟨m, hm, hbinds⟩ := hnamed (by simpa [Tree.isForm] using h)
      refine ⟨m.withRole .name, by rw [Node.part?_ofParts, hm, Option.map_some], ?_⟩
      cases m
      exact hbinds
    · refine hbraces hc (by simpa [Tree.isForm] using hform) ?_
      rw [Node.part?_ofParts, Option.map_eq_none_iff, List.head?_eq_none_iff] at hnone
      exact hnone
  · obtain ⟨c, hc, hm⟩ := Tree.mem_forestNodes.1 hm
    obtain ⟨part, hpart, hc⟩ := List.mem_flatMap.1 hc
    rw [Part.nodes_eq] at hc
    obtain ⟨c, hbare, rfl⟩ := List.mem_map.1 hc
    have hsited := ((hparts part hpart).bare c hbare).1
    cases hr : part.role? with
    | none =>
      rw [hr] at hm
      exact hsited m hm
    | some r =>
      rw [hr] at hm
      exact hsited.withRole r m hm

end EstreeLint.Grammar
