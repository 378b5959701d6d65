import EstreeLint.Proofs.Estree.Fit

/-!
When the parts of a node make it fit, form by form.

`enough` lists for every form what its parts have to supply, also for the forms whose needs depend
on more than the roles. The forms that look into the parts of a part come after it.
-/

namespace EstreeLint.Estree

open EstreeLint.Part (under)

variable {f : Form} {n : Node} {parts : List EstreeLint.Part} {flags : NodeFlags}

/-- What is enough for a form to be fit. -/
def enough : Form → List Want
  | .arrayLiteralExpression | .arrayBindingPattern => [.all .element]
  | .callExpression => [.must .expression, .listed .typeArgument, .all .argument]
  | .bindingElement => [.must .name, .may .propertyName, .may .initializer]
  | .parameter | .propertyDeclaration => [.must .name, .may .declaredType, .may .initializer]
  | .methodDeclaration | .getAccessor | .setAccessor => [.must .name, .signature, .may .body]
  | .importSpecifier | .exportSpecifier => [.must .name, .may .propertyName]
  | .literalType => [.must .type]
  | .jsxNamespacedName => [.must .namespaceName, .must .name]
  | f => wants f

section Node

variable {k : NodeKind}

lemma supplied_filled (h : Supplied (Needs.all n .element)) : Supplied (Needs.filled n) := by
  rw [supplied_all] at h
  exact (met_each _ _).2 fun m hm => h m ((List.mem_filter.1 hm).1)

/-- A call of `import` with nothing is stray. -/
lemma supplied_call (hk : n.kind = .form .callExpression)
    (hcallee : Supplied (Needs.must n .expression))
    (htypes : Supplied (Needs.listed n .typeArgument)) (hargs : Supplied (Needs.all n .argument)) :
    Stray n ∨ Supplied (Needs.call n) := by
  unfold Needs.call
  by_cases himport : (n.part? .expression).any (·.isToken .importKw) = true
  · rw [if_pos himport]
    rw [supplied_all] at hargs
    cases hl : n.partsOf .argument with
    | nil => exact .inl (.inr (.inr ⟨by simp [Tree.isForm, hk], himport, hl⟩))
    | cons source rest =>
      refine .inr ((met_each _ _).2 fun m hm => hargs m ?_)
      rw [hl]
      rcases List.mem_cons.1 hm with rfl | hm
      · exact List.mem_cons_self
      · exact List.mem_cons_of_mem _ (List.mem_of_mem_head? (by simpa using hm))
  · rw [if_neg himport]
    exact .inr (by simp [hcallee, htypes, hargs])

lemma supplied_key (hname : Supplied (Needs.must n .name))
    (hkey : Supplied (Needs.may n .propertyName)) : Supplied (Needs.must n (Needs.keyRole n)) := by
  unfold Needs.keyRole
  split
  · next h =>
    obtain ⟨m, hm⟩ := Option.isSome_iff_exists.1 h
    exact supplied_must.2 ⟨m, hm, supplied_may.1 hkey m hm⟩
  · exact hname

lemma supplied_bindingElement (hname : Supplied (Needs.must n .name))
    (hkey : Supplied (Needs.may n .propertyName)) (hvalue : Supplied (Needs.may n .initializer)) :
    Supplied (Needs.bindingElement k n) := by
  have := supplied_key hname hkey
  unfold Needs.bindingElement
  split
  · simp [hname, hvalue]
  · split <;> simp [*]

lemma supplied_method (hname : Supplied (Needs.must n .name)) (hsig : Supplied (Needs.signature n))
    (hbody : Supplied (Needs.may n .body)) : Supplied (Needs.method k n) := by
  unfold Needs.method
  extract_lets inType
  split
  · simp [hname, hsig]
  · split <;> simp [*]

/-- **What `enough` lists is enough.** -/
lemma supplied_of_enough (hk : n.kind = .form f)
    (h : ∀ w ∈ enough f, Supplied (Needs.ofWant n w)) (k : NodeKind) :
    Stray n ∨ Supplied (formNeeds k n f) := by
  cases f
  case arrayLiteralExpression | arrayBindingPattern =>
    exact .inr (supplied_filled (h (.all .element) (by decide)))
  case callExpression =>
    exact supplied_call hk (h (.must .expression) (by decide))
      (h (.listed .typeArgument) (by decide)) (h (.all .argument) (by decide))
  case bindingElement =>
    exact .inr (supplied_bindingElement (h (.must .name) (by decide))
      (h (.may .propertyName) (by decide)) (h (.may .initializer) (by decide)))
  case parameter =>
    have hvalue := h (.may .initializer) (by decide)
    refine .inr ((met_append _ _).2 ⟨(met_append _ _).2 ⟨h (.must .name) (by decide),
      h (.may .declaredType) (by decide)⟩, ?_⟩)
    split
    · exact met_nil
    · exact hvalue
  case propertyDeclaration =>
    have hvalue := h (.may .initializer) (by decide)
    refine .inr ((met_append _ _).2 ⟨(met_append _ _).2 ⟨(met_append _ _).2
      ⟨supplied_decorators, h (.must .name) (by decide)⟩, h (.may .declaredType) (by decide)⟩, ?_⟩)
    split
    · exact met_nil
    · exact hvalue
  case methodDeclaration | getAccessor | setAccessor =>
    exact .inr (supplied_method (h (.must .name) (by decide)) (h .signature (by decide))
      (h (.may .body) (by decide)))
  case importSpecifier | exportSpecifier =>
    have hname := h (.must .name) (by decide)
    exact .inr ((met_append _ _).2 ⟨supplied_key hname (h (.may .propertyName) (by decide)), hname⟩)
  case literalType =>
    have htype := h (.must .type) (by decide)
    refine .inr ?_
    simp only [formNeeds]
    split
    · exact met_nil
    · exact htype
  case jsxNamespacedName =>
    have hspace := supplied_must.1 (h (.must .namespaceName) (by decide))
    have hname := supplied_must.1 (h (.must .name) (by decide))
    obtain ⟨⟨a, ha, -⟩, b, hb, -⟩ := hspace, hname
    refine .inr ?_
    simp only [formNeeds, Needs.jsxName]
    split <;> simp [ha, hb, Needs.fact]
  -- forms that look into the parts of a part
  case binaryExpression | templateExpression | templateLiteralType | expressionWithTypeArguments
    | catchClause | classDeclaration | classExpression | interfaceDeclaration | moduleDeclaration
    | importDeclaration | exportDeclaration | importAttributes | mappedType | jsxOpeningElement
    | jsxSelfClosingElement | jsxClosingElement | jsxAttribute =>
    exact absurd (h .never (by decide)) (met_none [])
  all_goals exact .inr (supplied_ofWants h)

end Node

lemma fits_of_enough (h : ∀ w ∈ enough f, Supplies parts w) : Fits f parts flags := by
  intro id pos stop _
  by_cases hs : Stray (.ofParts id (.form f) pos stop flags parts)
  · exact .inl hs
  · refine .inr fun r k => ?_
    simp only [needs, Tree.kind_withRole, Node.kind_ofParts]
    refine (supplied_of_enough (by simp) (fun w hw => ?_) k).resolve_left (by simpa using hs)
    exact supplied_ofWant (h w hw) id pos stop (.form f) flags r

/-! ### Forms that look into the parts of a part -/

section Role

variable (n : Node) (r q : Role)

@[simp] lemma must_withRole : Needs.must (n.withRole r) q = Needs.must n q := by cases n; rfl

@[simp] lemma may_withRole : Needs.may (n.withRole r) q = Needs.may n q := by cases n; rfl

@[simp] lemma all_withRole : Needs.all (n.withRole r) q = Needs.all n q := by cases n; rfl

@[simp] lemma needsApplied_withRole : Needs.applied (n.withRole r) = Needs.applied n := by
  cases n
  rfl

@[simp] lemma tagName_withRole : Needs.tagName (n.withRole r) = Needs.tagName n := by
  obtain ⟨label, parts⟩ := n
  change Needs.tagName (.node { label with role := r } parts) = _
  unfold Needs.tagName
  rfl

@[simp] lemma jsxName_withRole : Needs.jsxName (n.withRole r) = Needs.jsxName n := by cases n; rfl

end Role

/-- A form is fit if all it needs is supplied, in whatever part it stands. -/
lemma fits_of_needs
    (h : ∀ id pos stop r k,
      Supplied (formNeeds k ((Node.ofParts id (.form f) pos stop flags parts).withRole r) f)) :
    Fits f parts flags := by
  intro id pos stop _
  refine .inr fun r k => ?_
  simp only [needs, Tree.kind_withRole, Node.kind_ofParts]
  exact h id pos stop r k

/-! #### Expressions -/

/-- An operator that has a text. -/
def IsOperator (n : Node) : Prop :=
  ∃ k, n.kind = .token k ∧ (k == .comma || k.text?.isSome) = true

lemma fits_operands {left mark right : Node} (hl : Usable left) (hm : IsOperator mark)
    (hr : Usable right) :
    Fits .binaryExpression
      [.one .left left, .one .operator mark, .one .right right] flags := by
  obtain ⟨t, ht, htext⟩ := hm
  refine fits_of_needs fun id pos stop r k => ?_
  change Supplied (Needs.operands _)
  simp [Needs.operands, supplied_must, supplied_fact, Node.part?_ofParts, hl, hr, Tree.token?, ht,
    NodeKind.token?, -Bool.or_eq_true, htext]

/-- A substitution in a template and the piece behind it. -/
def IsSpan (n : Node) : Prop :=
  Supplied (Needs.must n .expression) ∧ Supplied (Needs.must n .literal)

lemma fits_template {head : Node} {spans : NodeList}
    (hf : f = .templateExpression ∨ f = .templateLiteralType) (hh : Usable head)
    (hs : ∀ n ∈ spans.nodes, IsSpan n) :
    Fits f [.one .head head, .many .span spans] flags := by
  refine fits_of_needs fun id pos stop r k => ?_
  have hneeds (n : Node) : formNeeds k n f = Needs.template n := by
    rcases hf with rfl | rfl <;> rfl
  simp only [hneeds, Needs.template, met_append, met_flatMap]
  refine ⟨by simp [supplied_must, Node.part?_ofParts, hh], ?_⟩
  simpa [Node.partsOf_ofParts, IsSpan] using hs

/-- A name with type arguments that are usable. -/
lemma fits_applied {name : Node} {args : Option NodeList} (hn : Usable name)
    (ha : ∀ l ∈ args, ∀ n ∈ l.nodes, Usable n) :
    Fits .expressionWithTypeArguments
      [.one .typeName name, .optional .typeArgument args] flags := by
  intro id pos stop h
  obtain ⟨_, _, span, -, -, -, hlists⟩ := h.applied rfl
  refine .inr fun r k => ?_
  simp only [needs, Tree.kind_withRole, Node.kind_ofParts]
  cases args with
  | none => cases (show ([] : List (Role × ListSpan)) = [(.typeArgument, span)] from hlists)
  | some l =>
    have hl : Supplies [.one .typeName name, .optional .typeArgument (some l)]
        (.listed .typeArgument) := by
      simpa using ha l rfl
    have hargs := supplied_ofWant hl id pos stop (.form .expressionWithTypeArguments) flags r
    change Supplied (Needs.must _ _ ++ Needs.listed _ _ ++ Needs.fact _)
    refine (met_append _ _).2 ⟨(met_append _ _).2 ⟨?_, hargs⟩, supplied_fact.2 ?_⟩
    · simp [supplied_must, Node.part?_ofParts, hn]
    · rfl

/-! #### Patterns and types -/

/-- A variable with a name and perhaps a type. -/
def IsCaught (n : Node) : Prop :=
  Supplied (Needs.must n .name) ∧ Supplied (Needs.may n .declaredType)

lemma fits_catchClause {bound : Option Node} {body : Node} (hb : ∀ n ∈ bound, IsCaught n)
    (hbody : Usable body) :
    Fits .catchClause [.one .variableDeclaration bound, .one .block body] flags := by
  refine fits_of_needs fun id pos stop r k => ?_
  change Supplied (Needs.inside _ _ _ ++ Needs.must _ _)
  refine (met_append _ _).2 ⟨supplied_inside.2 ?_, supplied_must.2 ?_⟩
  on_goal 2 => cases bound <;> simp [Node.part?_ofParts, hbody]
  cases bound with
  | none => simp [Node.part?_ofParts]
  | some v => simpa [Node.part?_ofParts, IsCaught] using hb v rfl

/-- A type parameter with a name and a constraint. -/
def IsMapping (n : Node) : Prop :=
  Supplied (Needs.must n .name) ∧ Supplied (Needs.must n .constraint)

lemma fits_mappedType {param : Node} (hp : (under .typeParameter parts).head? = some param)
    (hm : IsMapping param) (hn : Supplies parts (.may .nameType))
    (ht : Supplies parts (.may .type)) :
    Fits .mappedType parts flags := by
  refine fits_of_needs fun id pos stop r k => ?_
  have hname := supplied_ofWant hn id pos stop (.form .mappedType) flags r
  have htype := supplied_ofWant ht id pos stop (.form .mappedType) flags r
  change Supplied (Needs.within _ _ _ ++ Needs.may _ _ ++ Needs.may _ _)
  refine (met_append _ _).2 ⟨(met_append _ _).2 ⟨?_, hname⟩, htype⟩
  simpa [supplied_within, Node.part?_ofParts, hp, IsMapping] using hm

/-! #### Classes and interfaces -/

/-- A clause with names that are applied to type arguments. -/
def IsHeritage (n : Node) : Prop := ∀ e ∈ n.partsOf .element, Supplied (Needs.applied e)

lemma supplied_heritage {cs : List Node} (h : ∀ c ∈ cs, IsHeritage c) (b b' : Bool) :
    Supplied (Needs.heritage b b' cs) := by
  induction cs generalizing b b' with
  | nil => exact met_nil
  | cons c cs ih =>
    have hc := h c (by simp)
    have ih := ih fun c hc => h c (by simp [hc])
    unfold Needs.heritage
    split
    · split
      · exact ih _ _
      · refine (met_append _ _).2 ⟨?_, ih _ _⟩
        cases he : (c.partsOf .element).head? with
        | none => exact met_nil
        | some e => exact hc e (List.mem_of_mem_head? he)
    · split
      · exact ih _ _
      · exact (met_append _ _).2 ⟨(met_flatMap _ _).2 hc, ih _ _⟩

lemma fits_classLike (hf : f = .classDeclaration ∨ f = .classExpression)
    (hname : Supplies parts (.may .name)) (htypes : Supplies parts (.listed .typeParameter))
    (hheritage : ∀ c ∈ under .heritage parts, IsHeritage c)
    (hmembers : ∀ n ∈ under .member parts, n.isForm .semicolonClassElement = true ∨ Usable n) :
    Fits f parts flags := by
  refine fits_of_needs fun id pos stop r k => ?_
  have hneeds (n : Node) : formNeeds k n f = Needs.classLike n := by
    rcases hf with rfl | rfl <;> rfl
  have hn := supplied_ofWant hname id pos stop (.form f) flags r
  have ht := supplied_ofWant htypes id pos stop (.form f) flags r
  simp only [hneeds, Needs.classLike, met_append, supplied_decorators, true_and]
  refine ⟨⟨⟨hn, ht⟩, supplied_heritage ?_ _ _⟩, ?_⟩
  · simpa [Node.partsOf_ofParts, IsHeritage] using hheritage
  · refine (met_each _ _).2 fun m hm => ?_
    obtain ⟨hm, hs⟩ := List.mem_filter.1 hm
    rw [Tree.partsOf_withRole, Node.partsOf_ofParts] at hm
    obtain ⟨m, hmem, rfl⟩ := List.mem_map.1 hm
    have := hmembers m hmem
    simp_all

lemma fits_interface (hname : Supplies parts (.must .name))
    (htypes : Supplies parts (.listed .typeParameter))
    (hheritage : ∀ c ∈ under .heritage parts, IsHeritage c)
    (hmembers : Supplies parts (.all .member)) : Fits .interfaceDeclaration parts flags := by
  refine fits_of_needs fun id pos stop r k => ?_
  have hn := supplied_ofWant hname id pos stop (.form .interfaceDeclaration) flags r
  have ht := supplied_ofWant htypes id pos stop (.form .interfaceDeclaration) flags r
  have hm := supplied_ofWant hmembers id pos stop (.form .interfaceDeclaration) flags r
  change Supplied (Needs.must _ _ ++ Needs.listed _ _ ++ List.flatMap _ _ ++ Needs.all _ _)
  refine (met_append _ _).2 ⟨(met_append _ _).2 ⟨(met_append _ _).2 ⟨hn, ht⟩, ?_⟩, hm⟩
  refine (met_flatMap _ _).2 fun c hc => (met_flatMap _ _).2 ?_
  have hc := (List.mem_filter.1 hc).1
  rw [Tree.partsOf_withRole, Node.partsOf_ofParts] at hc
  obtain ⟨c, hmem, rfl⟩ := List.mem_map.1 hc
  simpa [IsHeritage] using hheritage c hmem

/-! #### Modules -/

/-- A module that a dotted name may nest, with all that stands below it. -/
def Chained (n : Node) : Prop :=
  ∀ d, (∀ m ∈ Convert.innerDeclarations d n, Supplied (Needs.must m .name)) ∧
    Supplied (Needs.may ((Convert.innerDeclarations d n).getLastD n) .body)

/-- The body of a module is a block, or the module that the rest of a dotted name declares. -/
def IsModuleBody (n : Node) : Prop :=
  Usable n ∧ (n.isForm .moduleDeclaration = true → Supplied (Needs.must n .name) ∧ Chained n)

lemma chained_of_body {body : Option Node} (hb : n.part? .body = body)
    (hu : ∀ m ∈ body, IsModuleBody m) : Chained n := by
  have hmay : Supplied (Needs.may n .body) := supplied_may.2 fun m hm => (hu m (hb ▸ hm)).1
  rintro (_ | d)
  · exact ⟨by simp [Convert.innerDeclarations], hmay⟩
  · unfold Convert.innerDeclarations
    split
    · next inner hinner =>
      split
      · next hform =>
        obtain ⟨hname, hchain⟩ := (hu inner (hb ▸ hinner)).2 hform
        obtain ⟨h₁, h₂⟩ := hchain d
        refine ⟨by simpa [hname] using h₁, ?_⟩
        rw [List.getLastD_cons]
        exact h₂
      · exact ⟨by simp, hmay⟩
    · exact ⟨by simp, hmay⟩

lemma innerDeclarations_withRole (n : Node) (r : Role) (d : Nat) :
    Convert.innerDeclarations d (n.withRole r) = Convert.innerDeclarations d n := by
  cases d with
  | zero => rfl
  | succ d => simp only [Convert.innerDeclarations, Tree.part?_withRole]

lemma getLastD_withRole (n : Node) (r : Role) (l : List Node) (q : Role) :
    Needs.may (l.getLastD (n.withRole r)) q = Needs.may (l.getLastD n) q := by
  cases l with
  | nil => exact may_withRole n r q
  | cons m l => rw [List.getLastD_cons, List.getLastD_cons]

@[simp] lemma chained_withRole (n : Node) (r : Role) : Chained (n.withRole r) ↔ Chained n := by
  simp only [Chained, innerDeclarations_withRole, getLastD_withRole]

lemma chained_ofParts (h : ∀ m, (under .body parts).head? = some m → IsModuleBody m)
    (id : Nat) (kind : NodeKind) (pos stop : Nat) (flags : NodeFlags) :
    Chained (.ofParts id kind pos stop flags parts) := by
  refine chained_of_body (Node.part?_ofParts ..) fun m hm => ?_
  obtain ⟨m, hhead, rfl⟩ := Option.map_eq_some_iff.1 hm
  simpa [IsModuleBody] using h m hhead

lemma fits_moduleDeclaration (hname : Supplies parts (.must .name))
    (hbody : ∀ m, (under .body parts).head? = some m → IsModuleBody m) :
    Fits .moduleDeclaration parts flags := by
  refine fits_of_needs fun id pos stop r k => ?_
  have hn := supplied_ofWant hname id pos stop (.form .moduleDeclaration) flags r
  have hchain := (chained_withRole _ r).2
    (chained_ofParts hbody id (.form .moduleDeclaration) pos stop flags)
  generalize (Node.ofParts id (.form .moduleDeclaration) pos stop flags parts).withRole r = n at *
  change Supplied (Needs.must _ _ ++ List.flatMap _ _ ++ Needs.may _ _)
  unfold Needs.nestedModules
  split
  · exact (met_append _ _).2 ⟨(met_append _ _).2 ⟨hn, met_nil⟩, (hchain 0).2⟩
  · obtain ⟨h₁, h₂⟩ := hchain n.height
    exact (met_append _ _).2 ⟨(met_append _ _).2 ⟨hn, (met_flatMap _ _).2 h₁⟩, h₂⟩

/-- The attributes of an import are usable, and so is each of them. -/
def IsAttributes (n : Node) : Prop := Usable n ∧ ∀ e ∈ n.partsOf .element, Usable e

/-- The names that the clause of an import brings in are usable. -/
def IsImportClause (n : Node) : Prop :=
  ((n.part? .name).isSome = true → Usable n) ∧
    ∀ m, n.part? .namedBindings = some m →
      if m.isForm .namespaceImport then Usable m else ∀ e ∈ m.partsOf .element, Usable e

@[simp] lemma isImportClause_withRole (n : Node) (r : Role) :
    IsImportClause (n.withRole r) ↔ IsImportClause n := by
  simp [IsImportClause]

lemma supplied_importClause {clause : Node} (h : IsImportClause clause) :
    Supplied (Needs.importClause n clause) := by
  obtain ⟨hname, hbindings⟩ := h
  refine (met_append _ _).2 ⟨?_, supplied_inside.2 fun m hm => ?_⟩
  · split
    · next hn => simp [hname hn]
    · exact met_nil
  · have hm := hbindings m hm
    split
    · next hf => simpa [hf] using hm
    · next hf =>
      rw [if_neg hf] at hm
      exact supplied_all.2 hm

lemma fits_importDeclaration
    (hclause : ∀ m, (under .importClause parts).head? = some m → IsImportClause m)
    (hsource : Supplies parts (.must .moduleSpecifier))
    (hattributes : Supplies parts (.elementsIn .attributes)) :
    Fits .importDeclaration parts flags := by
  refine fits_of_needs fun id pos stop r k => ?_
  have hs := supplied_ofWant hsource id pos stop (.form .importDeclaration) flags r
  have ha := supplied_ofWant hattributes id pos stop (.form .importDeclaration) flags r
  change Supplied (Needs.inside _ _ _ ++ Needs.must _ _ ++ Needs.attributes _)
  refine (met_append _ _).2 ⟨(met_append _ _).2 ⟨supplied_inside.2 fun m hm => ?_, hs⟩, ha⟩
  rw [Tree.part?_withRole, Node.part?_ofParts] at hm
  obtain ⟨m, hhead, rfl⟩ := Option.map_eq_some_iff.1 hm
  exact supplied_importClause ((isImportClause_withRole _ _).2 (hclause m hhead))

/-- What is exported, and from where. Only names in braces are exported from nowhere else. -/
def IsExport (clause source : Option Node) : Prop :=
  (∀ n ∈ source, Usable n) ∧
    match clause with
    | none => source.isSome = true
    | some c =>
      if c.isForm .namedExports then ∀ e ∈ c.partsOf .element, Usable e
      else Supplied (Needs.must c .name) ∧ source.isSome = true

lemma fits_exportDeclaration {clause source : Option Node}
    (hc : (under .exportClause parts).head? = clause)
    (hs : (under .moduleSpecifier parts).head? = source) (he : IsExport clause source)
    (hattributes : Supplies parts (.elementsIn .attributes)) :
    Fits .exportDeclaration parts flags := by
  refine fits_of_needs fun id pos stop r k => ?_
  have ha := supplied_ofWant hattributes id pos stop (.form .exportDeclaration) flags r
  obtain ⟨hsource, hclause⟩ := he
  have hmay : Supplies parts (.may .moduleSpecifier) := fun m hm => hsource m (hs ▸ hm)
  have hmay := supplied_ofWant hmay id pos stop (.form .exportDeclaration) flags r
  have hmust (h : source.isSome = true) : Supplies parts (.must .moduleSpecifier) := by
    obtain ⟨m, rfl⟩ := Option.isSome_iff_exists.1 h
    exact ⟨m, hs, hsource m rfl⟩
  have hmust (h : source.isSome = true) :=
    supplied_ofWant (hmust h) id pos stop (.form .exportDeclaration) flags r
  change Supplied (Needs.exportDeclaration _)
  unfold Needs.exportDeclaration
  rw [Tree.part?_withRole, Node.part?_ofParts, hc]
  cases clause with
  | none => exact (met_append _ _).2 ⟨hmust hclause, ha⟩
  | some c =>
    simp only [Option.map_some, Tree.isForm_withRole, all_withRole, must_withRole]
    dsimp only at hclause
    split
    · next hf =>
      rw [if_pos hf] at hclause
      exact (met_append _ _).2 ⟨(met_append _ _).2 ⟨supplied_all.2 hclause, hmay⟩, ha⟩
    · next hf =>
      rw [if_neg hf] at hclause
      exact (met_append _ _).2 ⟨(met_append _ _).2 ⟨hclause.1, hmust hclause.2⟩, ha⟩

/-- A key and a value. -/
def IsAttribute (n : Node) : Prop :=
  Supplied (Needs.must n .name) ∧ Supplied (Needs.must n .value)

lemma fits_importAttributes (h : ∀ n ∈ under .element parts, IsAttribute n) :
    Fits .importAttributes parts flags := by
  refine fits_of_needs fun id pos stop r k => (met_flatMap _ _).2 ?_
  simpa [Node.partsOf_ofParts, IsAttribute] using h

/-! #### Elements -/

lemma fits_tag (hf : f = .jsxOpeningElement ∨ f = .jsxSelfClosingElement) {name : Node}
    (hn : (under .tagName parts).head? = some name) (hname : Supplied (Needs.tagName name))
    (htypes : Supplies parts (.listed .typeArgument))
    (hattributes : Supplies parts (.elementsIn .attributes)) : Fits f parts flags := by
  refine fits_of_needs fun id pos stop r k => ?_
  have hneeds (n : Node) : formNeeds k n f = Needs.openingElement n := by
    rcases hf with rfl | rfl <;> rfl
  have ht := supplied_ofWant htypes id pos stop (.form f) flags r
  have ha := supplied_ofWant hattributes id pos stop (.form f) flags r
  rw [hneeds]
  refine (met_append _ _).2 ⟨(met_append _ _).2 ⟨supplied_within.2 ?_, ht⟩, ha⟩
  simpa [Node.part?_ofParts, hn] using hname

lemma fits_closingTag {name : Node} (hname : Supplied (Needs.tagName name)) :
    Fits .jsxClosingElement [.one .tagName name] flags := by
  refine fits_of_needs fun id pos stop r k => supplied_within.2 ?_
  simpa [Node.part?_ofParts] using hname

lemma fits_attribute {name : Node} {value : Option Node} (hname : Supplied (Needs.jsxName name))
    (hvalue : ∀ n ∈ value, Usable n) :
    Fits .jsxAttribute [.one .name name, .one .initializer value] flags := by
  refine fits_of_needs fun id pos stop r k => (met_append _ _).2 ⟨supplied_within.2 ?_, ?_⟩
  · simpa [Node.part?_ofParts] using hname
  · refine supplied_may.2 ?_
    cases value with
    | none => simp [Node.part?_ofParts]
    | some v => simpa [Node.part?_ofParts] using hvalue v rfl

end EstreeLint.Estree
