import EstreeLint.Proofs.Estree.Follows

/-!
Nodes that are fit to be converted.

A node is usable if a rule is for its kind. A node is fit if all it needs is there and usable, or
if it is one of the few that the grammar lets through and no rule is for. Whether a node is fit
shows in the parts that it is made of, so this is read off where the node is made.
-/

namespace EstreeLint

/-! ### A node in another part -/

namespace Tree

variable (n : Node) (r r' : Role)

@[simp] lemma index_withRole : (n.withRole r).index = n.index := by cases n; rfl

@[simp] lemma kind_withRole : (n.withRole r).kind = n.kind := by cases n; rfl

@[simp] lemma pos_withRole : (n.withRole r).pos = n.pos := by cases n; rfl

@[simp] lemma stop_withRole : (n.withRole r).stop = n.stop := by cases n; rfl

@[simp] lemma role_withRole : (n.withRole r).role = r := by cases n; rfl

@[simp] lemma children_withRole : (n.withRole r).children = n.children := by cases n; rfl

@[simp] lemma withRole_withRole : (n.withRole r).withRole r' = n.withRole r' := by cases n; rfl

@[simp] lemma part?_withRole : (n.withRole r).part? r' = n.part? r' := by cases n; rfl

@[simp] lemma partsOf_withRole : (n.withRole r).partsOf r' = n.partsOf r' := by cases n; rfl

@[simp] lemma list?_withRole : (n.withRole r).list? r' = n.list? r' := by cases n; rfl

@[simp] lemma word?_withRole : (n.withRole r).word? = n.word? := by cases n; rfl

@[simp] lemma flags_withRole : (n.withRole r).flags = n.flags := by cases n; rfl

@[simp] lemma isForm_withRole (f : Form) : (n.withRole r).isForm f = n.isForm f := by cases n; rfl

@[simp] lemma isToken_withRole (k : TokenKind) : (n.withRole r).isToken k = n.isToken k := by
  cases n
  rfl

@[simp] lemma token?_withRole : (n.withRole r).token? = n.token? := by cases n; rfl

end Tree

/-! ### Parts under a role -/

namespace Part

/-- The nodes of a part as they were before they became parts. -/
def bare : Part → List Node
  | .one _ n => n.toList
  | .many _ l => l.nodes
  | .data _ => []

@[simp] lemma bare_one (r : Role) (n : Option Node) : (one r n).bare = n.toList := rfl

@[simp] lemma bare_many (r : Role) (l : NodeList) : (many r l).bare = l.nodes := rfl

@[simp] lemma bare_data (p : Payload) : (data p).bare = [] := rfl

@[simp] lemma bare_optional (r : Role) (l : Option NodeList) :
    (optional r l).bare = (l.map (·.nodes)).getD [] := by cases l <;> rfl

def role? : Part → Option Role
  | .one r _ | .many r _ => some r
  | .data _ => none

@[simp] lemma role?_one (r : Role) (n : Option Node) : (one r n).role? = some r := rfl

@[simp] lemma role?_many (r : Role) (l : NodeList) : (many r l).role? = some r := rfl

@[simp] lemma role?_data (p : Payload) : (data p).role? = none := rfl

@[simp] lemma role?_optional (r : Role) (l : Option NodeList) :
    (optional r l).role? = some r := by cases l <;> rfl

@[simp] lemma payload?_one (r : Role) (n : Option Node) : (one r n).payload? = none := rfl

@[simp] lemma payload?_many (r : Role) (l : NodeList) : (many r l).payload? = none := rfl

@[simp] lemma payload?_data (p : Payload) : (data p).payload? = some p := rfl

@[simp] lemma payload?_optional (r : Role) (l : Option NodeList) :
    (optional r l).payload? = none := by cases l <;> rfl

/-- The nodes of the parts with a role. -/
def under (r : Role) : List Part → List Node
  | [] => []
  | p :: ps => (if p.role? = some r then p.bare else []) ++ under r ps

@[simp] lemma under_nil (r : Role) : under r [] = [] := rfl

@[simp] lemma under_cons (r : Role) (p : Part) (ps : List Part) :
    under r (p :: ps) = (if p.role? = some r then p.bare else []) ++ under r ps := rfl

@[simp] lemma under_append (r : Role) (ps qs : List Part) :
    under r (ps ++ qs) = under r ps ++ under r qs := by
  induction ps with
  | nil => rfl
  | cons p ps ih => simp [ih]

lemma nodes_eq (p : Part) : p.nodes = p.bare.map fun n => (p.role?).elim n n.withRole := by
  cases p with
  | one r n => cases n <;> rfl
  | many r l => rfl
  | data p => rfl

end Part

namespace Node

variable (id : Nat) (kind : NodeKind) (pos stop : Nat) (flags : NodeFlags) (parts : List Part)

lemma filter_nodes (p : Part) (r : Role) :
    p.nodes.filter (·.role == r) =
      (if p.role? = some r then p.bare else []).map (·.withRole r) := by
  rw [Part.nodes_eq]
  cases hp : p.role? with
  | none =>
    cases p <;> simp_all
  | some r' =>
    by_cases h : r' = r
    · subst h
      simp
    · simp [h]

lemma partsOf_ofParts (r : Role) :
    (ofParts id kind pos stop flags parts).partsOf r = (Part.under r parts).map (·.withRole r) := by
  unfold Tree.partsOf ofParts
  rw [Tree.children_node]
  induction parts with
  | nil => rfl
  | cons p ps ih => simp [filter_nodes, ih]

lemma part?_ofParts (r : Role) :
    (ofParts id kind pos stop flags parts).part? r =
      (Part.under r parts).head?.map (·.withRole r) := by
  rw [← List.head?_map, ← partsOf_ofParts id kind pos stop flags, Tree.partsOf, Tree.part?,
    List.head?_filter]

@[simp] lemma kind_ofParts : (ofParts id kind pos stop flags parts).kind = kind := rfl

@[simp] lemma flags_ofParts : (ofParts id kind pos stop flags parts).flags = flags := rfl

@[simp] lemma pos_ofParts : (ofParts id kind pos stop flags parts).pos = pos := rfl

@[simp] lemma stop_ofParts : (ofParts id kind pos stop flags parts).stop = stop := rfl

lemma word?_ofParts :
    (ofParts id kind pos stop flags parts).word? =
      (parts.filterMap Part.payload?).head?.bind fun
        | .token k => some k
        | _ => none := by
  unfold Tree.word? ofParts
  rw [Tree.label_node]
  cases (parts.filterMap Part.payload?).head? with
  | none => rfl
  | some p => cases p <;> rfl

end Node

namespace Estree

/-! ### Usable nodes -/

/-- Forms that are only read as part of what they stand in. -/
def unruledForms : List Form :=
  [.templateSpan, .templateLiteralTypeSpan, .semicolonClassElement, .caseBlock, .namedImports,
    .namedExports, .namespaceExport, .missingDeclaration, .jsxAttributes, .heritageClause,
    .sourceFile]

/-- A kind that a rule is for, or that the grammar lets through although none is. -/
def isRuled : NodeKind → Bool
  | .token k => isConvertible k || k == .importKw
  | .form f => !unruledForms.contains f

/-- A name before a list of type arguments. -/
def Applied (n : Node) : Prop :=
  ∃ name args span, n.children = name :: args ∧ name.role = .typeName ∧
    (∀ a ∈ args, a.role = .typeArgument) ∧ n.label.lists = [(.typeArgument, span)]

/-- A node that a rule is for. The clause of an import stands for the name in it, and a name is
applied to arguments. -/
structure Usable (n : Node) : Prop where
  ruled : isRuled n.kind = true
  named : n.isForm .importClause = true → (n.part? .name).isSome = true
  applied : n.isForm .expressionWithTypeArguments = true → Applied n

@[simp] lemma applied_withRole (n : Node) (r : Role) : Applied (n.withRole r) ↔ Applied n := by
  cases n
  rfl

@[simp] lemma usable_withRole (n : Node) (r : Role) : Usable (n.withRole r) ↔ Usable n := by
  constructor
  · rintro ⟨h₁, h₂, h₃⟩
    exact ⟨by simpa using h₁, by simpa using h₂, by simpa using h₃⟩
  · rintro ⟨h₁, h₂, h₃⟩
    exact ⟨by simpa using h₁, by simpa using h₂, by simpa using h₃⟩

lemma usable_of_token {n : Node} {k : TokenKind} (h : n.kind = .token k)
    (hk : isRuled (.token k) = true) : Usable n :=
  ⟨h ▸ hk, by simp [Tree.isForm, h], by simp [Tree.isForm, h]⟩

lemma usable_of_form {n : Node} {f : Form} (h : n.kind = .form f)
    (hf : isRuled (.form f) = true ∧ f ≠ .importClause ∧ f ≠ .expressionWithTypeArguments) :
    Usable n :=
  ⟨h ▸ hf.1, by simp [Tree.isForm, h, hf.2.1], by simp [Tree.isForm, h, hf.2.2]⟩

/-! ### What is supplied -/

/-- All that is needed is there and usable. -/
abbrev Supplied (l : Needs) : Prop := Met (fun s => Usable s.node) l

section Supplied

variable {n : Node} {r : Role}

lemma supplied_fact {b : Bool} : Supplied (Needs.fact b) ↔ b = true := by
  cases b <;> simp [Needs.fact]

lemma supplied_must : Supplied (Needs.must n r) ↔ ∃ m, n.part? r = some m ∧ Usable m := by
  unfold Needs.must
  cases n.part? r <;> simp

lemma supplied_may : Supplied (Needs.may n r) ↔ ∀ m, n.part? r = some m → Usable m := by
  unfold Needs.may
  cases n.part? r <;> simp

lemma supplied_all : Supplied (Needs.all n r) ↔ ∀ m ∈ n.partsOf r, Usable m := met_each ..

lemma supplied_listed (h : ∀ m ∈ n.partsOf r, Usable m) : Supplied (Needs.listed n r) := by
  unfold Needs.listed
  split
  · exact supplied_all.2 h
  · exact met_nil

lemma supplied_within {need : Node → Needs} :
    Supplied (Needs.within n r need) ↔ ∃ m, n.part? r = some m ∧ Supplied (need m) := by
  unfold Needs.within
  cases n.part? r <;> simp

lemma supplied_inside {need : Node → Needs} :
    Supplied (Needs.inside n r need) ↔ ∀ m, n.part? r = some m → Supplied (need m) := by
  unfold Needs.inside
  cases n.part? r <;> simp

/-- A decorator is usable by its kind. -/
@[simp] lemma supplied_decorators : Supplied (Needs.decorators n) := by
  refine (met_each _ _).2 fun m hm => ?_
  have hf := (List.mem_filter.1 hm).2
  exact usable_of_form (by simpa [Tree.isForm] using hf) (by decide)

lemma supplied_signature (htypes : ∀ m ∈ n.partsOf .typeParameter, Usable m)
    (hparams : ∀ m ∈ n.partsOf .parameter, Usable m)
    (htype : ∀ m, n.part? .declaredType = some m → Usable m) :
    Supplied (Needs.signature n) := by
  simp only [Needs.signature, met_append, met_flatMap]
  refine ⟨⟨supplied_listed htypes, fun m hm => ?_⟩, supplied_may.2 htype⟩
  simp [hparams m hm]

end Supplied

/-! ### Fit nodes -/

/-- The nodes that the grammar lets through and that do not convert: an argument that is left out,
`import` where it is not called, and `import` called with nothing. -/
def Stray (n : Node) : Prop :=
  n.isForm .omittedExpression = true ∨ n.isToken .importKw = true ∨
    n.isForm .callExpression = true ∧
      (n.part? .expression).any (·.isToken .importKw) = true ∧ n.partsOf .argument = []

@[simp] lemma stray_withRole (n : Node) (r : Role) : Stray (n.withRole r) ↔ Stray n := by
  simp [Stray]

/-- **A stray node does not convert.** -/
lemma none_mem_needs {s : Site} (h : Stray s.node) : none ∈ needs s := by
  obtain ⟨k, n⟩ := s
  rcases h with h | h | ⟨h, hcallee, hargs⟩
  · obtain h : n.kind = .form .omittedExpression := by simpa [Tree.isForm] using h
    simp only [needs, h]
    exact List.mem_singleton.2 rfl
  · obtain h : n.kind = .token .importKw := by simpa [Tree.isToken] using h
    simp only [needs, h]
    exact List.mem_singleton.2 rfl
  · obtain h : n.kind = .form .callExpression := by simpa [Tree.isForm] using h
    simp only [needs, h]
    change none ∈ Needs.call n
    rw [Needs.call, if_pos hcallee, hargs]
    exact List.mem_singleton.2 rfl

/-- All that the node needs is supplied, in whatever part it stands, or it is stray. -/
def Fit (n : Node) : Prop := Stray n ∨ ∀ r k, Supplied (needs ⟨k, n.withRole r⟩)

@[simp] lemma fit_withRole (n : Node) (r : Role) : Fit (n.withRole r) ↔ Fit n := by
  simp [Fit]

open EstreeLint.Part (under payload?)

/-- A node of a form that is made of these parts is fit if it is usable. -/
def Fits (f : Form) (parts : List EstreeLint.Part) (flags : NodeFlags) : Prop :=
  ∀ id pos stop, Usable (.ofParts id (.form f) pos stop flags parts) →
    Fit (.ofParts id (.form f) pos stop flags parts)

/-- The parts supply what a form wants. -/
@[simp] def Supplies (parts : List EstreeLint.Part) : Want → Prop
  | .must r => ∃ m, (under r parts).head? = some m ∧ Usable m
  | .may r => ∀ m, (under r parts).head? = some m → Usable m
  | .all r | .listed r => ∀ m ∈ under r parts, Usable m
  | .elementsOf r =>
    ∃ m, (under r parts).head? = some m ∧ ∀ e ∈ m.partsOf .element, Usable e
  | .elementsIn r =>
    ∀ m, (under r parts).head? = some m → ∀ e ∈ m.partsOf .element, Usable e
  | .signature =>
    (∀ m ∈ under .typeParameter parts, Usable m) ∧
      (∀ m ∈ under .parameter parts, Usable m) ∧
      ∀ m, (under .declaredType parts).head? = some m → Usable m
  | .word => ∃ k, (parts.filterMap payload?).head? = some (.token k) ∧ k.text?.isSome = true
  | .never => False

lemma supplied_ofWant {parts : List EstreeLint.Part} {w : Want} (h : Supplies parts w)
    (id pos stop : Nat)
    (kind : NodeKind) (flags : NodeFlags) (r : Role) :
    Supplied (Needs.ofWant ((Node.ofParts id kind pos stop flags parts).withRole r) w) := by
  cases w with
  | must q => simpa [Needs.ofWant, supplied_must, Node.part?_ofParts] using h
  | may q => simpa [Needs.ofWant, supplied_may, Node.part?_ofParts] using h
  | all q => simpa [Needs.ofWant, supplied_all, Node.partsOf_ofParts] using h
  | listed q => exact supplied_listed (by simpa [Node.partsOf_ofParts] using h)
  | elementsOf q =>
    simpa [Needs.ofWant, supplied_within, supplied_all, Node.part?_ofParts] using h
  | elementsIn q =>
    simpa [Needs.ofWant, supplied_inside, supplied_all, Node.part?_ofParts] using h
  | signature =>
    obtain ⟨h₁, h₂, h₃⟩ := h
    refine supplied_signature ?_ ?_ ?_
    · simpa [Node.partsOf_ofParts] using h₁
    · simpa [Node.partsOf_ofParts] using h₂
    · simpa [Node.part?_ofParts] using h₃
  | word =>
    obtain ⟨k, hk, ht⟩ := h
    simp [Needs.ofWant, supplied_fact, Node.word?_ofParts, hk, ht]
  | never => exact h.elim

lemma supplied_ofWants {n : Node} {ws : List Want} (h : ∀ w ∈ ws, Supplied (Needs.ofWant n w)) :
    Supplied (Needs.ofWants n ws) := by
  induction ws with
  | nil => exact met_nil
  | cons w ws ih =>
    have hw := h w (by simp)
    cases ws with
    | nil => exact hw
    | cons v ws => exact (met_append _ _).2 ⟨hw, ih fun u hu => h u (by simp [hu])⟩

/-- Of a form that is never converted itself there is nothing to show. -/
lemma fits_unruled {f : Form} {parts : List EstreeLint.Part} {flags : NodeFlags}
    (hf : isRuled (.form f) = false) : Fits f parts flags :=
  fun _ _ _ h => absurd h.ruled (by simp [hf])

end Estree

end EstreeLint
