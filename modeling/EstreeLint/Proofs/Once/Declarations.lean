import EstreeLint.Proofs.Once.Expressions

/-!
The rules for patterns, functions, classes, modules, elements and statements read their parts once,
but for names that are words: these are read twice where they stand for a value as well.
-/

namespace EstreeLint.Estree.Convert

open Registry (Grew)

variable {α : Type} {env : Env} {x cap : Nat} {n m : Node} {r : Role} {own k : Nat}
  {roles roles' : List Role}

/-! ### Patterns -/

section Patterns

variable [hcounted : Counted env x cap]

/-- The decorators of a parameter are left to the function. -/
instance : Adds env x cap n (parameter n) 2 [.name, .declaredType, .initializer] := by
  refine .seq 0 2 [.name] [.declaredType, .initializer] inferInstance fun name => ?_
  refine .seq 0 2 [.declaredType] [.initializer] inferInstance fun type => ?_
  infer_instance

/-- A parameter is converted without its decorators, and these with the parameters. -/
instance : Adds env x cap n (parameters n) 0 [.parameter] where
  grew {r s as} hn hr hrun := by
    have hpart (m : Node) (hm : m ∈ n.partsOf .parameter) : Bounded env x cap n m (do
        let converted ← convertPart n m
        decorate converted (← decorators m)) := by
      refine ⟨fun {r s a} hn hmem hr hrun => ?_⟩
      obtain ⟨converted, r₁, hconverted, hrun⟩ := run_bind_eq_ok hrun
      have hmNodes := Tree.mem_nodes_trans hn (Tree.mem_nodes_of_mem hmem)
      have h₁ := @convertPart_grew env x cap _ _ hcounted _ _ _ _ hn hmem hr hconverted
      have hrest : Adds env x cap m (decorators m >>= (decorate converted ·)) 0 [.modifier] :=
        .seq 0 0 [.modifier] [] inferInstance fun _ => .silent inferInstance
      refine (h₁.trans (hrest.grew hmNodes h₁.sound hrun)).mono ?_
      have hform : m.isForm .parameter = true :=
        (hcounted.asked.sited n hn).role .parameter m hm
      have hsplit := loads_filter_add (x := x) (·.role != .modifier) m.children
      have hmods : m.children.filter (fun c => !(c.role != .modifier)) = m.partsOf .modifier :=
        List.filter_congr fun c _ => Bool.not_not _
      rw [hmods] at hsplit
      simp only [due, if_pos hform, load_eq, ← hsplit, cost, ite_self, Nat.mul_add]
      omega
    exact (adds_mapPartsOf hpart).grew hn hr hrun

instance : Adds env x cap n (objectBindingPattern n) 1 [.element] := by
  unfold objectBindingPattern
  infer_instance

instance : Adds env x cap n (arrayBindingPattern n) 1 [.element] := by
  unfold arrayBindingPattern
  infer_instance

instance : Adds env x cap n (arrayBinding n) 1 [.name, .initializer] := by
  unfold arrayBinding
  infer_instance

end Patterns

/-! ### Names that are read twice -/

section Tokens

variable (hcountable : Countable env.file x) (hn : n ∈ env.file.root.nodes)

include hcountable hn

/-- Nothing is counted in a token. -/
lemma loads_tokens (h : ∀ m ∈ n.partsOf r, ∃ k, m.kind = .token k) : loads x (n.partsOf r) = 0 := by
  obtain ⟨hparsed, hform⟩ := hcountable
  have hzero (m : Node) (hm : m ∈ n.partsOf r) : load x m = 0 := by
    obtain ⟨k, hk⟩ := h m hm
    have hmNodes := Parsed.mem_part hn hm
    have hindex : m.index ≠ x := fun hx => by
      obtain ⟨f, hf⟩ := hform m hmNodes hx
      rw [hk] at hf
      cases hf
    have hchildren : m.children = [] := List.eq_nil_iff_forall_not_mem.2 fun c hc => by
      have hmet := (hparsed.shaped m hmNodes).parts c.role c (List.mem_filter.2 ⟨hc, by simp⟩)
      rw [hk] at hmet
      exact hmet
    rw [load_eq, if_neg hindex, hchildren, loads_nil]
  generalize n.partsOf r = ms at hzero
  induction ms with
  | nil => rfl
  | cons m ms ih => rw [loads_cons, hzero m (by simp), ih fun m hm => hzero m (by simp [hm])]

variable (hkind : Grammar.isBinder n.kind = true) (hkey : Grammar.OwnKey n)

include hkind hkey

/-- A name that is its own key may be read as often as one likes. -/
lemma cost_le_of_ownKey (h : ¬ (n.part? .propertyName).isSome = true)
    (hc : cost x n roles ≤ cost x n roles' + k * loads x (n.partsOf .name)) :
    cost x n roles ≤ cost x n roles' := by
  rwa [loads_tokens hcountable hn (hkey hkind (Option.not_isSome_iff_eq_none.1 h)), Nat.mul_zero]
    at hc

end Tokens

section Names

variable [hcounted : Counted env x cap]

/-- The name of a property that is only named is a word. -/
lemma shorthandProperty_adds (hn : n ∈ env.file.root.nodes)
    (hk : n.kind = .form .shorthandPropertyAssignment) :
    Adds env x cap n (shorthandProperty n) 1 [.name, .initializer] := by
  have hall : Adds env x cap n (shorthandProperty n) 1 [.name, .name, .initializer] := by
    unfold shorthandProperty
    infer_instance
  refine hall.mono (Nat.le_refl _) ?_
  have hname : loads x (n.partsOf .name) = 0 := loads_tokens hcounted.countable hn fun m hm => by
    have hmet := (hcounted.countable.parsed.shaped n hn).parts .name m hm
    rwa [hk] at hmet
  simp only [cost]
  omega

/-- The key of a specifier is read before the name, or the name twice. -/
lemma adds_givenName {f : EsNode → EsNode → Convert EsNode} (hn : n ∈ env.file.root.nodes)
    (hkind : Grammar.isBinder n.kind = true) (hkey : Grammar.OwnKey n)
    (hf : ∀ a b, Adds env x cap n (f a b) 1 []) :
    Adds env x cap n (givenName n >>= fun a => child n .name >>= f a) 1 [.propertyName, .name] := by
  have hrest (a : EsNode) : Adds env x cap n (child n .name >>= f a) 1 [.name] :=
    .seq 0 1 [.name] [] inferInstance (hf a)
  unfold givenName
  split
  · exact .seq 0 1 [.propertyName] [.name] inferInstance hrest
  · next h =>
    refine (Adds.seq 0 1 [.name] [.name] inferInstance hrest).mono (Nat.le_refl _) ?_
    refine cost_le_of_ownKey (k := 1) hcounted.countable hn hkind hkey h ?_
    simp only [cost, List.cons_append, List.nil_append]
    omega

lemma importSpecifier_adds (hn : n ∈ env.file.root.nodes)
    (hkind : Grammar.isBinder n.kind = true) (hkey : Grammar.OwnKey n) :
    Adds env x cap n (importSpecifier n) 1 [.propertyName, .name] :=
  adds_givenName hn hkind hkey fun _ _ => inferInstance

lemma exportSpecifier_adds (hn : n ∈ env.file.root.nodes)
    (hkind : Grammar.isBinder n.kind = true) (hkey : Grammar.OwnKey n) :
    Adds env x cap n (exportSpecifier n) 1 [.propertyName, .name] :=
  adds_givenName hn hkind hkey fun _ _ => inferInstance

lemma objectBinding_adds (hn : n ∈ env.file.root.nodes)
    (hkind : Grammar.isBinder n.kind = true) (hkey : Grammar.OwnKey n) :
    Adds env x cap n (objectBinding n) 1 [.propertyName, .name, .initializer] := by
  by_cases h : (n.part? .propertyName).isSome = true
  · simp only [objectBinding, h, if_true]
    infer_instance
  · have hall : Adds env x cap n (objectBinding n) 1 [.name, .name, .initializer] := by
      simp only [objectBinding, h]
      infer_instance
    refine hall.mono (Nat.le_refl _)
      (cost_le_of_ownKey (k := 1) hcounted.countable hn hkind hkey h ?_)
    simp only [cost]
    omega

end Names

/-! ### Modules -/

section Modules

variable [hcounted : Counted env x cap] {t : NodeType} {f : Field}

lemma bodyFrom_grew {r s : Registry} {prologue : Bool} {statements : List Node} {as : List EsNode}
    (hn : n ∈ env.file.root.nodes) (hms : ∀ m ∈ statements, m ∈ n.children) (hr : r.Sound env.file)
    (hrun : bodyFrom n prologue statements env r = .ok (as, s)) :
    Grew env.file x (cap * loads x statements) r s := by
  induction statements generalizing prologue r s as with
  | nil =>
    cases hrun
    exact .refl hr
  | cons statement rest ih =>
    obtain ⟨converted, r₁, hconverted, hrun⟩ := run_bind_eq_ok hrun
    have hpart : Bounded env x cap n statement (convertPart n statement) := inferInstance
    have h₁ := hpart.grew hn (hms statement (by simp)) hr hconverted
    have hlater {prologue : Bool} {r s : Registry} {first : EsNode} {as : List EsNode}
        (hr : r.Sound env.file) (hrun : (do
          return first :: (← bodyFrom n prologue rest)) env r = .ok (as, s)) :
        Grew env.file x (cap * loads x rest) r s := by
      obtain ⟨others, r₂, hothers, hrun⟩ := run_bind_eq_ok hrun
      cases hrun
      exact ih (fun m hm => hms m (by simp [hm])) hr hothers
    have hrest : Grew env.file x (cap * loads x rest) r₁ s := by
      cases prologue with
      | true =>
        obtain ⟨text?, r₂, htext, hrun⟩ := run_bind_eq_ok hrun
        have hsilent : Silent env x (directiveText? statement) := inferInstance
        have h₂ := hsilent.grew h₁.sound htext
        exact (h₂.trans (hlater h₂.sound hrun)).mono (Nat.le_of_eq (Nat.zero_add _))
      | false => exact hlater h₁.sound hrun
    refine (h₁.trans hrest).mono (Nat.le_of_eq ?_)
    rw [loads_cons, Nat.mul_add]

instance {b : Bool} : Adds env x cap n (body n r b) 0 [r] where
  grew hn hr hrun := by
    have hbody : Grew env.file x (cap * loads x (n.partsOf r)) _ _ :=
      bodyFrom_grew hn (fun _ hm => Below.mem_of_partsOf hm) hr hrun
    exact hbody.mono (Nat.le_add_left ..)

instance {b : Bool} : Bounded env x cap n m (body m r b) :=
  .of_adds inferInstance (Nat.zero_le _) (by simp)

instance : Adds env x cap n (moduleBlock n) 1 [.element] := by unfold moduleBlock; infer_instance

/-- From the declaration down, each is the body of the one before. -/
inductive Nests : Node → List Node → Prop
  | nil (n : Node) : Nests n []
  | cons {n m : Node} {ms : List Node} (hm : n.part? .body = some m)
    (hk : m.kind = .form .moduleDeclaration) (h : Nests m ms) : Nests n (m :: ms)

omit hcounted in
lemma nests_inner (depth : Nat) (n : Node) : Nests n (innerDeclarations depth n) := by
  induction depth generalizing n with
  | zero => exact .nil n
  | succ depth ih =>
    unfold innerDeclarations
    split
    · next m hm =>
      split
      · next hk => exact .cons hm (beq_iff_eq.1 hk) (ih m)
      · exact .nil n
    · exact .nil n

/-- The names and the body of a dotted declaration stand in the body of the outermost. -/
lemma nested_grew {r s : Registry} {id joined : EsNode} {body : Option EsNode} {t : Registry}
    {inner : List Node} (hinner : Nests n inner) (hn : n ∈ env.file.root.nodes)
    (hr : r.Sound env.file) (hid : qualify id inner env r = .ok (joined, s))
    (hbody : child? (inner.getLastD n) .body env s = .ok (body, t)) :
    Grew env.file x (cap * loads x (n.partsOf .body)) r t := by
  induction hinner generalizing r id with
  | nil n =>
    cases hid
    have hadds : Adds env x cap n (child? n .body) 0 [.body] := inferInstance
    refine (hadds.grew hn hr hbody).mono ?_
    simp only [cost, ite_self, Nat.add_zero, Nat.zero_add]
    exact Nat.le_refl _
  | @cons n m ms hm hk _ ih =>
    have hmem := Below.mem_of_part? hm
    have hmNodes := Tree.mem_nodes_trans hn (Tree.mem_nodes_of_mem hmem)
    rw [qualify] at hid
    obtain ⟨right, r₁, hright, hid⟩ := run_bind_eq_ok hid
    obtain ⟨pair, r₂, hpair, hid⟩ := run_bind_eq_ok hid
    have hname : Adds env x cap m (child m .name) 0 [.name] := inferInstance
    have h₁ := hname.grew hmNodes hr hright
    have hmake : Silent env x (make none (Span.between id.range.start right.range.stop)
        .tsQualifiedName [.one .left id, .one .right right]) := inferInstance
    have h₂ := hmake.grew h₁.sound hpair
    have hrest := ih hmNodes h₂.sound hid (by rwa [List.getLastD_cons] at hbody)
    refine ((h₁.trans h₂).trans hrest).mono ?_
    have hload := Nat.mul_le_mul_left cap (load_le_cost (x := x) (mem_partsOf_of_part? hm))
    have hcost := Nat.mul_le_mul_left cap
      (cost_le (x := x) (n := m) (show [Role.name, .body].Nodup by decide))
    simp only [cost, load_eq, ite_self, Nat.mul_add] at hload hcost ⊢
    omega

/-- A declaration takes its number once, and again for an export around it. -/
lemma moduleDeclaration_adds {k : Nat} (hwrap : ∀ e, Adds env x cap n (wrapExport n e) k []) :
    Adds env x cap n (moduleDeclaration n) (1 + k) [.name, .body] := by
  refine adds_requireOf fun name hname => ?_
  extract_lets inner kind
  have hinner : Nests n inner := by
    unfold inner
    split
    · exact .nil n
    · exact nests_inner _ n
  clear_value inner kind
  refine ⟨fun {r s a} hn hr hrun => ?_⟩
  obtain ⟨first, r₁, hfirst, hrun⟩ := run_bind_eq_ok hrun
  obtain ⟨id, r₂, hid, hrun⟩ := run_bind_eq_ok hrun
  obtain ⟨body, r₃, hbody, hrun⟩ := run_bind_eq_ok hrun
  have hchild : Adds env x cap n (child n .name) 0 [.name] := inferInstance
  have h₁ := hchild.grew hn hr hfirst
  have h₂ : Grew env.file x (cap * loads x (n.partsOf .body)) r₁ r₃ :=
    nested_grew hinner hn h₁.sound hid hbody
  have hlast : Adds env x cap n (finish n .tsModuleDeclaration
      [.one? .body body, .flag .isDeclared ((n :: inner).any (hasWord · .declareKw)),
        .flag .isGlobal n.flags.globalAugmentation, .one .id id, .text .kind kind] >>=
      (wrapExport n ·)) (1 + k) [] := .seq 1 k [] [] inferInstance hwrap
  refine ((h₁.trans h₂).trans (hlast.grew hn h₂.sound hrun)).mono ?_
  simp only [cost, ite_self, Nat.mul_add]
  omega

instance : Adds env x cap n (moduleDeclaration n) 2 [.name, .body] :=
  moduleDeclaration_adds fun _ => inferInstance

instance : Adds env x cap n (moduleAttributes n) 0 [.attributes] := by
  unfold moduleAttributes
  split
  · next attributes h => exact adds_of_part h inferInstance
  · exact .silent inferInstance

instance : Adds env x cap n (importDefault n) 1 [.name] := by unfold importDefault; infer_instance

instance : Adds env x cap n (namespaceImport n) 1 [.name] := by
  unfold namespaceImport
  infer_instance

instance : Adds env x cap n (importAttribute n) 1 [.name, .value] := by
  unfold importAttribute
  infer_instance

instance : Adds env x cap n (attributesObject n) 1 [.element] := by
  have hentry (element : Node) : Bounded env x cap n element (do
      let key ← child element .name
      let value ← child element .value
      finish element .property
        (propertyParts (.flag .isComputed false) key "init" false false false value)) :=
    .of_adds inferInstance (Nat.le_refl _) (by decide)
  unfold attributesObject
  infer_instance

/-- The clause of an import is converted for its default name, and what else it brings in with the
import. -/
lemma bounded_importSpecifiers (hm : m.kind = .form .importClause) :
    Bounded env x cap n m (importSpecifiers n m) := by
  unfold importSpecifiers
  extract_lets last
  have hlast (names : List EsNode) : Adds env x cap m (last names) 0 [.namedBindings] := by
    simp only [last]
    split
    · exact .silent inferInstance
    · next bindings h =>
      refine .ite (fun _ => ?_) fun _ => ?_
      · exact .seq 0 0 [.namedBindings] [] (adds_of_part h inferInstance) fun _ => inferInstance
      · exact .seq 0 0 [.namedBindings] [] (adds_of_part h inferInstance) fun _ => inferInstance
  clear_value last
  refine ⟨fun {r s a} hn hmem hr hrun => ?_⟩
  have hmNodes := Tree.mem_nodes_trans hn (Tree.mem_nodes_of_mem hmem)
  have hdue : due x m = (if m.index = x then 1 else 0) + loads x (m.partsOf .name) := by
    simp [due, Tree.isForm, hm]
  have hcost := Nat.mul_le_mul_left cap
    (cost_le (x := x) (n := m) (show [Role.name, .namedBindings].Nodup by decide))
  split at hrun
  · obtain ⟨e, r₁, he, hrun⟩ := run_bind_eq_ok hrun
    have h₁ := @convertPart_grew env x cap _ _ hcounted _ _ _ _ hn hmem hr he
    refine (h₁.trans ((hlast _).grew hmNodes h₁.sound hrun)).mono ?_
    simp only [hdue, cost, load_eq, ite_self, Nat.mul_add] at hcost ⊢
    omega
  · refine ((hlast _).grew hmNodes hr hrun).mono ?_
    simp only [cost, load_eq, ite_self, Nat.mul_add] at hcost ⊢
    omega

/-- What an import declaration brings in stands in its clause. -/
lemma importDeclaration_adds (hn : n ∈ env.file.root.nodes)
    (hk : n.kind = .form .importDeclaration) :
    Adds env x cap n (importDeclaration n) 1 [.importClause, .moduleSpecifier, .attributes] := by
  unfold importDeclaration
  extract_lets clause? last
  have hlast (names : List EsNode) :
      Adds env x cap n (last names) 1 [.moduleSpecifier, .attributes] := by
    unfold last
    infer_instance
  have hnames (clause : Node) (h : clause? = some clause) :
      Adds env x cap n (importSpecifiers n clause) 0 [.importClause] := by
    refine adds_of_part h (bounded_importSpecifiers ?_)
    have hmet := (hcounted.countable.parsed.shaped n hn).parts .importClause clause
      (mem_partsOf_of_part? h)
    rwa [hk] at hmet
  clear_value last clause?
  cases clause? with
  | some clause =>
    exact .seq 0 1 [.importClause] [.moduleSpecifier, .attributes] (hnames clause rfl) hlast
  | none =>
    refine (Adds.after inferInstance hlast).mono (Nat.le_refl _) ?_
    simp only [cost]
    omega

instance : Adds env x cap n (importEquals n) 2 [.name, .moduleReference] := by
  unfold importEquals
  infer_instance

instance : Adds env x cap n (wrappedExpression n t f) 1 [.expression] := by
  unfold wrappedExpression
  infer_instance

instance : Adds env x cap n (exportAll n) 1 [.exportClause, .moduleSpecifier, .attributes] := by
  unfold exportAll
  infer_instance

instance : Adds env x cap n (exportDeclaration n) 1
    [.exportClause, .moduleSpecifier, .attributes] := by
  unfold exportDeclaration
  split
  · next clause h =>
    refine .ite (fun _ => ?_) fun _ => inferInstance
    refine .seq 0 1 [.exportClause] [.moduleSpecifier, .attributes] (adds_of_part h inferInstance)
      fun specifiers => ?_
    infer_instance
  · infer_instance

instance : Adds env x cap n (exportAssignment n) 1 [.expression] := by
  unfold exportAssignment
  infer_instance

instance : Adds env x cap n (namespaceExport n) 1 [.name] := by
  unfold namespaceExport
  infer_instance

end Modules

/-! ### Functions -/

section Functions

variable [hcounted : Counted env x cap] {t : NodeType}

instance : Adds env x cap n (signature n) 0 [.typeParameter, .parameter, .declaredType] := by
  unfold signature
  infer_instance

instance : Adds env x cap n (functionDeclaration n) 2
    [.name, .typeParameter, .parameter, .declaredType, .body] := by
  unfold functionDeclaration
  infer_instance

instance : Adds env x cap n (functionExpression n) 1
    [.name, .typeParameter, .parameter, .declaredType, .body] := by
  unfold functionExpression
  infer_instance

instance : Adds env x cap n (arrowFunction n) 1
    [.typeParameter, .parameter, .declaredType, .body] := by
  unfold arrowFunction
  infer_instance

instance {async : Part} {generator : Bool} : Adds env x cap n (methodValue n async generator) 0
    [.typeParameter, .parameter, .declaredType, .body] := by
  unfold methodValue
  infer_instance

instance : Adds env x cap n (propertySignature n) 1 [.name, .declaredType] := by
  unfold propertySignature
  infer_instance

instance : Adds env x cap n (methodSignature n) 1
    [.name, .typeParameter, .parameter, .declaredType] := by
  unfold methodSignature
  infer_instance

instance : Adds env x cap n (indexSignature n) 1 [.parameter, .declaredType] := by
  unfold indexSignature
  infer_instance

instance : Adds env x cap n (callSignature n t) 1 [.typeParameter, .parameter, .declaredType] := by
  unfold callSignature
  infer_instance

instance : Adds env x cap n (functionType n) 1 [.typeParameter, .parameter, .declaredType] := by
  unfold functionType
  infer_instance

end Functions

/-! ### Classes -/

section Classes

variable [hcounted : Counted env x cap] {t : NodeType}

instance : Adds env x cap n (superClass n) 0 [.element] := by
  unfold superClass
  split
  · exact .silent inferInstance
  · next first h =>
    have hmem : first ∈ n.partsOf .element := List.mem_of_mem_head? h
    have hfirst : Bounded env x cap n first (do
        let e ← child first .typeName
        let args ← typeArguments? first
        return (some e, args)) := .of_adds inferInstance (Nat.zero_le _) (by decide)
    refine ⟨fun hn hr hrun => (hfirst.grew hn (Below.mem_of_partsOf hmem) hr hrun).mono ?_⟩
    exact Nat.le_add_left_of_le (Nat.mul_le_mul_left _ (load_le_cost hmem))

instance : Adds env x cap n (heritageTypes n t) 0 [.element] := by
  unfold heritageTypes
  infer_instance

instance : Bounded env x cap n m (heritageTypes m t) :=
  .of_adds inferInstance (Nat.zero_le _) (by decide)

instance {h : Heritage} : Bounded env x cap n m (heritageStep h m) := by
  have hstep : Adds env x cap m (heritageStep h m) 0 [.element] := by
    unfold heritageStep
    infer_instance
  exact .of_adds hstep (Nat.zero_le _) (by decide)

instance : Adds env x cap n (classLike n t) 1
    [.modifier, .name, .typeParameter, .heritage, .member] := by
  unfold classLike
  infer_instance

instance : Adds env x cap n (classDeclaration n) 2
    [.modifier, .name, .typeParameter, .heritage, .member] := by
  unfold classDeclaration
  infer_instance

instance : Adds env x cap n (propertyDeclaration n) 1
    [.modifier, .name, .declaredType, .initializer] := by
  unfold propertyDeclaration
  infer_instance

instance : Adds env x cap n (objectMethod n) 1
    [.name, .typeParameter, .parameter, .declaredType, .body] := by
  unfold objectMethod
  infer_instance

instance : Adds env x cap n (classMethod n) 1
    [.modifier, .name, .typeParameter, .parameter, .declaredType, .body] := by
  unfold classMethod
  infer_instance

instance : Adds env x cap n (method n) 1
    [.name, .typeParameter, .parameter, .declaredType, .body, .modifier] := by
  unfold method
  infer_instance

instance : Adds env x cap n (constructorMember n) 1
    [.typeParameter, .parameter, .declaredType, .body] := by
  unfold constructorMember
  infer_instance

instance : Adds env x cap n (staticBlock n) 1 [.body] := by unfold staticBlock; infer_instance

instance : Adds env x cap n (interfaceDeclaration n) 2
    [.name, .typeParameter, .heritage, .member] := by
  unfold interfaceDeclaration clausesOf
  infer_instance

instance : Adds env x cap n (typeAlias n) 2 [.name, .typeParameter, .type] := by
  unfold typeAlias
  infer_instance

instance : Adds env x cap n (enumDeclaration n) 2 [.name, .member] := by
  unfold enumDeclaration
  infer_instance

instance : Adds env x cap n (enumMember n) 1 [.name, .value] := by unfold enumMember; infer_instance

end Classes

/-! ### Elements -/

section Elements

variable [hcounted : Counted env x cap]

omit hcounted in
instance : Adds env x cap n (jsxIdentifier n) 1 [] := by unfold jsxIdentifier; infer_instance

instance : Bounded env x cap n m (jsxIdentifier m) :=
  .of_adds inferInstance (Nat.le_refl _) (by decide)

instance : Adds env x cap n (jsxName n) 1 [.namespaceName, .name] := by
  unfold jsxName
  infer_instance

instance : Bounded env x cap n m (jsxName m) := .of_adds inferInstance (Nat.le_refl _) (by decide)

/-- The names in a tag that has dots stand in one another. -/
lemma jsxTagName_grew {r s : Registry} {a : EsNode} (hn : n ∈ env.file.root.nodes)
    (hr : r.Sound env.file) (hrun : jsxTagName n env r = .ok (a, s)) :
    Grew env.file x (cap * load x n) r s := by
  have hone := hcounted.one_le
  have hself (m : Node) : (if m.index = x then 1 else 0) ≤ cap * (if m.index = x then 1 else 0) :=
    Nat.le_mul_of_pos_left _ hone
  induction n using jsxTagName.induct generalizing r s a with
  | case1 label object property hk ih =>
    have hmem {m : Node} (hm : m ∈ [object, property]) : m ∈ env.file.root.nodes :=
      Tree.mem_nodes_trans hn (Tree.mem_nodes_of_mem hm)
    unfold jsxTagName at hrun
    simp only [hk] at hrun
    obtain ⟨e, r₁, he, hrun⟩ := run_bind_eq_ok hrun
    obtain ⟨name, r₂, hname, hrun⟩ := run_bind_eq_ok hrun
    have h₁ := ih (hmem (by simp)) hr he
    have hidentifier : Bounded env x cap (.node label [object, property]) property
        (jsxIdentifier property) := inferInstance
    have h₂ := hidentifier.grew hn (by simp [Tree.children]) h₁.sound hname
    have hfinish : Adds env x cap (.node label [object, property])
        (finish (.node label [object, property]) .jsxMemberExpression
          [.one .object e, .one .property name]) 1 [] := inferInstance
    refine ((h₁.trans h₂).trans (hfinish.grew hn h₂.sound hrun)).mono ?_
    have := hself (.node label [object, property])
    rw [load_eq (n := .node label [object, property])]
    simp only [cost, Tree.children, loads_cons, loads_nil, Nat.mul_add, Nat.mul_zero]
    omega
  | case2 label parts hname =>
    have hplain : jsxTagName (.node label parts) = jsxName (.node label parts) := by
      unfold jsxTagName
      split
      · exact (hname _ _ ‹_› rfl).elim
      · rfl
    rw [hplain] at hrun
    have hadds : Adds env x cap (.node label parts) (jsxName (.node label parts)) 1
        [.namespaceName, .name] := inferInstance
    refine (hadds.grew hn hr hrun).mono ?_
    have hcost := Nat.mul_le_mul_left cap (cost_le (x := x) (n := .node label parts)
      (show [Role.namespaceName, .name].Nodup by decide))
    have := hself (.node label parts)
    rw [load_eq, Nat.mul_add]
    omega

instance : Bounded env x cap n m (jsxTagName m) where
  grew hn hm hr hrun :=
    jsxTagName_grew (Tree.mem_nodes_trans hn (Tree.mem_nodes_of_mem hm)) hr hrun

lemma openingElement_adds {native : Option Node} {w : Span} {selfClosing : Bool}
    (hnative : ∀ m ∈ native, m = n) : Adds env x cap n (openingElement native n w selfClosing) 1
      [.tagName, .typeArgument, .attributes] := by
  refine adds_requireOf fun m hm => ?_
  refine .seq 0 1 [.tagName] [.typeArgument, .attributes] (adds_of_part hm inferInstance)
    fun name => .seq 0 1 [.typeArgument] [.attributes] inferInstance fun args => ?_
  extract_lets rest
  have hrest (attributes : List EsNode) : Adds env x cap n (rest attributes) 1 [] := by
    unfold rest
    cases native with
    | none => exact .silent inferInstance
    | some m =>
      obtain rfl := hnative m rfl
      infer_instance
  clear_value rest
  split
  · next list hlist =>
    exact .seq 0 1 [.attributes] [] (adds_of_part hlist inferInstance) hrest
  · exact (Adds.after inferInstance hrest).mono (Nat.le_refl _) (Nat.zero_le _)

instance : Adds env x cap n (jsxOpening n) 1 [.tagName, .typeArgument, .attributes] :=
  .after inferInstance fun _ => openingElement_adds (by simp)

instance : Adds env x cap n (jsxSelfClosing n) 2 [.tagName, .typeArgument, .attributes] :=
  .after inferInstance fun _ => .seq 1 1 [.tagName, .typeArgument, .attributes] []
    (openingElement_adds nofun) fun _ => inferInstance

instance : Adds env x cap n (jsxClosing n) 1 [.tagName] := by unfold jsxClosing; infer_instance

instance : Adds env x cap n (jsxElement n) 1 [.opening, .child, .closing] := by
  unfold jsxElement
  infer_instance

instance : Adds env x cap n (jsxFragment n) 1 [.opening, .child, .closing] := by
  unfold jsxFragment
  infer_instance

instance : Adds env x cap n (jsxAttribute n) 1 [.name, .initializer] := by
  unfold jsxAttribute
  infer_instance

instance : Adds env x cap n (jsxExpression n) 1 [.expression] := by
  unfold jsxExpression
  infer_instance

end Elements

/-! ### Statements -/

section Statements

variable [hcounted : Counted env x cap] {t : NodeType} {f : Field}

instance : Adds env x cap n (block n) 1 [.element] := by unfold block; infer_instance

instance : Adds env x cap n (optionalExpression n t f r) 1 [r] := by
  unfold optionalExpression
  infer_instance

instance : Adds env x cap n (ifStatement n) 1 [.condition, .thenStatement, .elseStatement] := by
  unfold ifStatement
  infer_instance

instance : Adds env x cap n (doStatement n) 1 [.statement, .condition] := by
  unfold doStatement
  infer_instance

instance : Adds env x cap n (whileStatement n) 1 [.condition, .statement] := by
  unfold whileStatement
  infer_instance

instance : Adds env x cap n (forStatement n) 1
    [.initializer, .condition, .incrementor, .statement] := by
  unfold forStatement
  infer_instance

instance : Adds env x cap n (forEachStatement n) 1 [.initializer, .expression, .statement] := by
  unfold forEachStatement
  infer_instance

instance : Adds env x cap n (withStatement n) 1 [.head, .statement] := by
  unfold withStatement
  infer_instance

instance : Adds env x cap n (labeledStatement n) 1 [.label, .statement] := by
  unfold labeledStatement
  infer_instance

instance : Adds env x cap n (switchStatement n) 1 [.expression, .caseBlock] := by
  unfold switchStatement
  infer_instance

instance : Adds env x cap n (caseClause n) 1 [.expression, .statement] := by
  unfold caseClause
  infer_instance

instance : Adds env x cap n (tryStatement n) 1 [.tryBlock, .catchClause, .finallyBlock] := by
  unfold tryStatement
  infer_instance

instance : Adds env x cap n (boundName n) 0 [.name, .declaredType] := by
  unfold boundName
  infer_instance

instance : Bounded env x cap n m (boundName m) :=
  .of_adds inferInstance (Nat.zero_le _) (by decide)

instance : Adds env x cap n (catchClause n) 1 [.variableDeclaration, .block] := by
  unfold catchClause
  infer_instance

instance : Adds env x cap n (variableStatement n) 2 [.declarationList] := by
  unfold variableStatement
  infer_instance

instance : Adds env x cap n (variableDeclarationList n) 1 [.element] := by
  unfold variableDeclarationList
  infer_instance

instance : Adds env x cap n (variableDeclarator n) 1 [.name, .declaredType, .initializer] := by
  unfold variableDeclarator
  infer_instance

end Statements

end EstreeLint.Estree.Convert
