import EstreeLint.Proofs.Estree.Totality

/-!
The conversion of a node goes down the tree: what it converts on the way lies below the node. So
it comes to its end within as many levels as the tree has, and it makes no difference how nodes
further down would be converted.
-/

namespace EstreeLint.Estree

variable {α β : Type} {n n₀ m : Node}

/-- The step converts nodes below `n` only. -/
class Within (n : Node) (p : Convert α) : Prop where
  same {env : Env} {recur : Place → Node → Build EsNode}
    (h : ∀ place, ∀ m ∈ n.descendants, recur place m = env.recur place m) :
    p { env with recur } = p env

namespace Within

lemma up {p : Convert α} (hp : Within m p) (hm : m ∈ n.descendants) : Within n p where
  same h := hp.same fun place _ ht => h place _ (Tree.mem_descendants_trans hm ht)

lemma upChild {p : Convert α} (hp : Within m p) (hm : m ∈ n.children) : Within n p :=
  hp.up (Tree.mem_descendants_of_mem hm)

lemma bind {p : Convert α} {f : α → Convert β} (hp : Within n p) (hf : ∀ a, Within n (f a)) :
    Within n (p >>= f) where
  same {env recur} h := by
    funext r
    change (p { env with recur } r >>= fun x => f x.1 { env with recur } x.2) =
      (p env r >>= fun x => f x.1 env x.2)
    rw [hp.same h]
    exact congrArg (p env r >>= ·) (funext fun x => by rw [(hf x.1).same h])

/-- A step that looks at the file or at its place. -/
lemma ofRead {f : Env → Convert α} (hf : ∀ env, Within n (f env))
    (h : ∀ env recur, f { env with recur } = f env := by intros; rfl) :
    Within n (read >>= f) where
  same {env recur} hr := by
    change f { env with recur } { env with recur } = f env env
    rw [h]
    exact (hf env).same hr

instance (a : α) : Within n (pure a : Convert α) := ⟨fun _ => rfl⟩

instance (e : ConvertError) : Within n (throw e : Convert α) := ⟨fun _ => rfl⟩

instance (f : Registry → Registry) : Within n (modify f : Convert Unit) := ⟨fun _ => rfl⟩

instance {p : Convert α} {f : α → Convert β} [hp : Within n p] [hf : ∀ a, Within n (f a)] :
    Within n (p >>= f) := hp.bind hf

instance {p : Convert α} [hp : Within n p] (g : α → β) : Within n (g <$> p) := by
  rw [map_eq_pure_bind]
  infer_instance

lemma ite {c : Prop} [Decidable c] {p q : Convert α} (hp : Within n p) (hq : Within n q) :
    Within n (if c then p else q) := by
  split
  · exact hp
  · exact hq

instance {c : Prop} [Decidable c] {p q : Convert α} [hp : Within n p] [hq : Within n q] :
    Within n (if c then p else q) := hp.ite hq

lemma mapM {f : α → Convert β} (xs : List α) (h : ∀ x ∈ xs, Within n (f x)) :
    Within n (xs.mapM f) := by
  induction xs with
  | nil => exact inferInstanceAs (Within n (pure []))
  | cons x xs ih =>
    rw [List.mapM_cons]
    have hx := h x (by simp)
    have hxs := ih fun y hy => h y (by simp [hy])
    infer_instance

lemma mapM? {f : α → Convert β} (o : Option α) (h : ∀ x ∈ o, Within n (f x)) :
    Within n (o.mapM f) := by
  cases o with
  | none => exact inferInstanceAs (Within n (pure none))
  | some x =>
    have hx := h x rfl
    exact inferInstanceAs (Within n (some <$> f x))

instance {f : α → Convert β} [h : ∀ x, Within n (f x)] (o : Option α) : Within n (o.mapM f) :=
  mapM? o fun x _ => h x

lemma foldlM {f : β → α → Convert β} (xs : List α) (h : ∀ b, ∀ x ∈ xs, Within n (f b x)) (b : β) :
    Within n (xs.foldlM f b) := by
  induction xs generalizing b with
  | nil => exact inferInstanceAs (Within n (pure b))
  | cons x xs ih =>
    rw [List.foldlM_cons]
    exact (h b x (by simp)).bind fun b => ih (fun b y hy => h b y (by simp [hy])) b

end Within

namespace Convert

/-! ### Steps -/

section Steps

instance : Within n₀ (tokensOf n) := .ofRead fun _ => inferInstance

instance (r : Span) : Within n₀ (sourceOf r) := .ofRead fun _ => inferInstance

instance (e : EsNode) (start : Nat) : Within n₀ (restart e start) := .ofRead fun _ => inferInstance

instance (e : EsNode) : Within n₀ (resettle e) := .ofRead fun _ => inferInstance

instance (native : Option Node) (r : Span) (type : NodeType) (parts : List Part) :
    Within n₀ (make native r type parts) := ⟨fun _ => rfl⟩

instance (type : NodeType) (parts : List Part) : Within n₀ (finish n type parts) := by
  unfold finish
  infer_instance

instance : Within n₀ (unexpected n : Convert α) := by unfold unexpected; infer_instance

instance : Within n₀ (missing n : Convert α) := by unfold missing; infer_instance

instance (r : Role) : Within n₀ (require n r) := by
  unfold require
  split <;> infer_instance

instance (pos : Nat) : Within n₀ (tokenAt pos) := .ofRead fun _ => inferInstance

instance (pos : Nat) (wanted : TokenKind) : Within n₀ (findToken pos wanted) :=
  .ofRead fun _ => inferInstance

instance : Within n₀ isTarget := .ofRead fun _ => inferInstance

lemma within_convertPart {part : Node} {isTarget : Bool} (h : part ∈ n₀.descendants) :
    Within n₀ (convertPart n part isTarget) := ⟨fun hr => hr _ _ h⟩

lemma within_part {part : Node} {isTarget : Bool} (h : part ∈ n.children) :
    Within n (convertPart n part isTarget) :=
  within_convertPart (Tree.mem_descendants_of_mem h)

lemma within_require {r : Role} {f : Node → Convert α} (h : ∀ m ∈ n.children, Within n (f m)) :
    Within n (require n r >>= f) := by
  unfold require
  split
  · rw [pure_bind]
    exact h _ (Below.mem_of_part? ‹_›)
  · exact ⟨fun _ => rfl⟩

/-- A part that may be there. -/
lemma within_mapPart {r : Role} {f : Node → Convert α} (h : ∀ m ∈ n.children, Within n (f m)) :
    Within n ((n.part? r).mapM f) := .mapM? _ fun m hm => h m (Below.mem_of_part? hm)

/-- The parts with a role. -/
lemma within_mapParts {r : Role} {f : Node → Convert α} (h : ∀ m ∈ n.children, Within n (f m)) :
    Within n ((n.partsOf r).mapM f) := .mapM _ fun m hm => h m (Below.mem_of_partsOf hm)

instance (r : Role) : Within n (child n r) := within_require fun _ => within_part

instance (r : Role) : Within n (target n r) := within_require fun _ => within_part

instance (r : Role) : Within n (child? n r) := within_mapPart fun _ => within_part

instance (r : Role) : Within n (children n r) := within_mapParts fun _ => within_part

instance (r : Role) (isTarget : Bool) : Within n (childrenOrHoles n r isTarget) := by
  refine within_mapParts fun m hm => ?_
  have hpart : Within n (convertPart n m isTarget) := within_part hm
  infer_instance

instance : Within n (decorators n) :=
  .mapM _ fun _ hm => within_part (Below.mem_of_partsOf (List.mem_filter.1 hm).1)

end Steps

/-! ### Tokens -/

section Leaf

variable (k : TokenKind)

instance : Within n₀ (literal n k) := by unfold literal; infer_instance

instance : Within n₀ (templateElement n k) := by unfold templateElement; infer_instance

instance : Within n₀ (identifier n) := .ofRead fun _ => inferInstance

instance : Within n₀ (jsxText n) := by unfold jsxText; infer_instance

instance : Within n₀ (token n k) := by
  unfold token
  split
  case h_16 => split <;> infer_instance
  all_goals infer_instance

end Leaf

/-! ### Types -/

instance : Within n (declaredType? n) := by
  refine within_mapPart fun m hm => ?_
  have hpart : Within n (convertPart n m) := within_part hm
  infer_instance

instance (list : NodeList) : Within n (angleRange list) := by unfold angleRange; infer_instance

instance (r : Role) (type : NodeType) : Within n (angleList? n r type) := by
  unfold angleList?
  infer_instance

instance : Within n (typeParameters? n) := by unfold typeParameters?; infer_instance

instance : Within n (typeArguments? n) := by unfold typeArguments?; infer_instance

instance (type : NodeType) (f : Field) : Within n (wrappedType n type f) := by
  unfold wrappedType
  infer_instance

instance (type : NodeType) (f : Field) : Within n (listedTypes n type f) := by
  unfold listedTypes
  infer_instance

instance : Within n (typeParameter n) := by unfold typeParameter; infer_instance

instance : Within n (typeReference n) := by unfold typeReference; infer_instance

instance : Within n (typeQuery n) := by unfold typeQuery; infer_instance

instance : Within n (typePredicate n) := by unfold typePredicate; infer_instance

instance : Within n (qualifiedName n) := by unfold qualifiedName; infer_instance

instance : Within n (conditionalType n) := by unfold conditionalType; infer_instance

instance : Within n (typeOperator n) := by
  unfold typeOperator
  split <;> infer_instance

instance : Within n (indexedAccessType n) := by unfold indexedAccessType; infer_instance

instance : Within n (mappedType n) := by
  refine within_require fun param hm => ?_
  have hname : Within n (child param .name) := .upChild inferInstance hm
  have hconstraint : Within n (child param .constraint) := .upChild inferInstance hm
  infer_instance

instance : Within n (literalType n) := by unfold literalType; infer_instance

instance : Within n (namedTupleMember n) := by unfold namedTupleMember; infer_instance

instance : Within n (templateParts n) := by
  have hspans : Within n ((n.partsOf .span).mapM fun span => do
      let e ← child span .expression
      let piece ← child span .literal
      return (e, piece)) :=
    within_mapParts fun span hm => .upChild inferInstance hm
  unfold templateParts
  infer_instance

instance : Within n (templateLiteralType n) := .bind inferInstance fun _ => inferInstance

lemma within_importOptions {argument attributes : Node} (h : attributes ∈ n.children) :
    Within n (importOptions n argument attributes) := by
  have hpart : Within n (convertPart n attributes) := within_part h
  unfold importOptions
  infer_instance

instance : Within n (importType n) := by
  refine .bind inferInstance fun whole => ?_
  extract_lets jp
  have hrest (r : Span) : Within n (jp r) := by
    refine within_require fun argument hm => .bind (within_part hm) fun _ => .bind ?_ fun _ => ?_
    · exact within_mapPart fun _ => within_importOptions
    · infer_instance
  infer_instance

/-! ### Expressions -/

instance : Within n (arrayLiteral n) := by unfold arrayLiteral; infer_instance

instance : Within n (objectLiteral n) := by
  have hproperties (b : Bool) : Within n ((n.partsOf .element).mapM (convertPart n · b)) :=
    within_mapParts fun _ => within_part
  unfold objectLiteral
  infer_instance

instance : Within n (propertyAssignment n) := by unfold propertyAssignment; infer_instance

instance : Within n (shorthandProperty n) := by unfold shorthandProperty; infer_instance

instance : Within n (spread n) := by unfold spread; infer_instance

instance (chain : EsNode) : Within n₀ (dissolve chain) := by
  unfold dissolve
  split <;> infer_instance

instance (link : EsNode) (f : Field) : Within n₀ (wrapChain n link f) := by
  unfold wrapChain
  extract_lets optional closed subject? continues last
  have hlast (link : EsNode) : Within n₀ (last link) := inferInstance
  refine .ite inferInstance (.ite ?_ inferInstance)
  clear_value continues subject?
  cases subject? <;> infer_instance

instance : Within n (memberExpression n) := by unfold memberExpression; infer_instance

instance : Within n (importExpression n) := by
  unfold importExpression
  split
  · infer_instance
  · rename_i source rest h
    have hmem (m : Node) (hm : m ∈ source :: rest) : m ∈ n.children :=
      Below.mem_of_partsOf (h ▸ hm)
    refine .bind (within_part (hmem _ (by simp))) fun _ => .bind ?_ fun _ => inferInstance
    exact .mapM? _ fun m hm => within_part (hmem _ (by simp [List.mem_of_mem_head? hm]))

instance : Within n (callExpression n) := by unfold callExpression; infer_instance

instance : Within n (nonNull n) := by unfold nonNull; infer_instance

instance : Within n (newExpression n) := by unfold newExpression; infer_instance

instance : Within n (taggedTemplate n) := by unfold taggedTemplate; infer_instance

instance : Within n (templateExpression n) := by unfold templateExpression; infer_instance

instance (operator : String) : Within n (wordOperator n operator) := by
  unfold wordOperator
  infer_instance

instance : Within n (unaryExpression n) := by
  unfold unaryExpression
  split
  · split <;> infer_instance
  · infer_instance

instance : Within n (sequence n) := by unfold sequence; infer_instance

instance : Within n (binaryExpression n) := by
  unfold binaryExpression
  split
  · refine .ite inferInstance ?_
    split <;> infer_instance
  · infer_instance

instance : Within n (conditionalExpression n) := by unfold conditionalExpression; infer_instance

instance : Within n (yieldExpression n) := by unfold yieldExpression; infer_instance

instance (type : NodeType) : Within n (typedExpression n type) := by
  unfold typedExpression
  infer_instance

instance : Within n (metaProperty n) := by
  unfold metaProperty
  split <;> infer_instance

instance : Within n (instantiation n) := by
  refine .bind inferInstance fun e => .bind inferInstance fun args => ?_
  split <;> infer_instance

instance (type : NodeType) : Within n (heritageType n type) := by
  unfold heritageType
  infer_instance

/-! ### Patterns -/

instance (e : EsNode) (type : Option EsNode) (question : Option Span) :
    Within n₀ (declare e type question) := by
  unfold declare
  infer_instance

instance (e : EsNode) (decorators : List EsNode) : Within n₀ (decorate e decorators) := by
  unfold decorate
  infer_instance

instance : Within n (parameter n) := by
  refine .bind inferInstance fun name => .bind inferInstance fun type => .ofRead fun env => ?_
  infer_instance

instance : Within n (parameters n) := by
  refine within_mapParts fun param hm => .bind (within_part hm) fun converted => ?_
  have hdecorators : Within n (decorators param) := .upChild inferInstance hm
  infer_instance

instance : Within n (objectBindingPattern n) := by unfold objectBindingPattern; infer_instance

instance : Within n (arrayBindingPattern n) := by unfold arrayBindingPattern; infer_instance

instance : Within n (arrayBinding n) := by unfold arrayBinding; infer_instance

instance : Within n (objectBinding n) := by
  unfold objectBinding
  refine .ite inferInstance (.bind inferInstance fun key => ?_)
  extract_lets last
  have hlast (value : EsNode) : Within n (last value) := inferInstance
  refine .ite (within_require fun m hm => .bind (within_part hm) fun left => ?_) inferInstance
  exact .bind inferInstance fun right => .ofRead fun env => inferInstance

instance : Within n (bindingElement n) := .ofRead fun _ => inferInstance

/-! ### Modules -/

instance (declaration : EsNode) : Within n₀ (wrapExport n declaration) := by
  unfold wrapExport
  split
  · refine .bind inferInstance fun ⟨_, after⟩ => ?_
    dsimp only
    split <;> infer_instance
  · infer_instance

instance : Within n₀ (directiveText? n) := by
  unfold directiveText?
  refine .ite inferInstance ?_
  split <;> infer_instance

lemma within_bodyFrom {prologue : Bool} {statements : List Node}
    (h : ∀ m ∈ statements, m ∈ n.children) : Within n (bodyFrom n prologue statements) := by
  induction statements generalizing prologue with
  | nil => exact inferInstanceAs (Within n (pure []))
  | cons statement rest ih =>
    have hrest (prologue : Bool) : Within n (bodyFrom n prologue rest) :=
      ih fun m hm => h m (by simp [hm])
    rw [bodyFrom]
    exact .bind (within_part (h statement (by simp))) fun converted => inferInstance

instance (r : Role) (prologue : Bool) : Within n (body n r prologue) :=
  within_bodyFrom fun _ => Below.mem_of_partsOf

lemma mem_descendants_of_inner {depth : Nat} {m : Node} (h : m ∈ innerDeclarations depth n) :
    m ∈ n.descendants := by
  induction depth generalizing n with
  | zero => simp [innerDeclarations] at h
  | succ depth ih =>
    unfold innerDeclarations at h
    split at h
    · rename_i inner hinner
      have hchild := Below.mem_of_part? hinner
      split at h
      · rcases List.mem_cons.1 h with rfl | h
        · exact Tree.mem_descendants_of_mem hchild
        · exact Tree.mem_descendants_of_child hchild (ih h)
      · simp at h
    · simp at h

lemma within_qualify {id : EsNode} {inner : List Node} (h : ∀ m ∈ inner, m ∈ n.descendants) :
    Within n (qualify id inner) := by
  induction inner generalizing id with
  | nil => exact inferInstanceAs (Within n (pure id))
  | cons m rest ih =>
    have hname : Within n (child m .name) := .up inferInstance (h m (by simp))
    have hrest (id : EsNode) : Within n (qualify id rest) := ih fun m hm => h m (by simp [hm])
    rw [qualify]
    infer_instance

instance : Within n (moduleDeclaration n) := by
  refine within_require fun name hname => ?_
  extract_lets inner last
  have hinner (m : Node) (hm : m ∈ inner) : m ∈ n.descendants := by
    simp only [inner] at hm
    split at hm
    · simp at hm
    · exact mem_descendants_of_inner hm
  have hid (id : EsNode) : Within n (qualify id inner) := within_qualify hinner
  have hbody : Within n (child? (inner.getLastD n) .body) := by
    rcases List.mem_cons.1 (List.getLastD_mem_cons (l := inner) (a := n)) with h | h
    · rw [h]
      infer_instance
    · exact .up inferInstance (hinner _ h)
  infer_instance

instance : Within n (moduleBlock n) := by unfold moduleBlock; infer_instance

lemma within_importSpecifiers {clause : Node} (h : clause ∈ n.children) :
    Within n (importSpecifiers n clause) := by
  have hclause : Within n (convertPart n clause) := within_part h
  unfold importSpecifiers
  extract_lets last
  have hlast (names : List EsNode) : Within n (last names) := by
    simp only [last]
    split
    · infer_instance
    · rename_i bindings hb
      have hmem := Below.mem_of_part? hb
      have hbindings : Within n (convertPart clause bindings) := .upChild (within_part hmem) h
      have helements : Within n (children bindings .element) :=
        .up inferInstance (Tree.mem_descendants_of_child h (Tree.mem_descendants_of_mem hmem))
      infer_instance
  infer_instance

instance : Within n (moduleAttributes n) := by
  unfold moduleAttributes
  split
  · exact .upChild inferInstance (Below.mem_of_part? ‹_›)
  · infer_instance

instance : Within n (importDeclaration n) := by
  unfold importDeclaration
  extract_lets clause? last
  have hnames (clause : Node) (h : clause? = some clause) : Within n (importSpecifiers n clause) :=
    within_importSpecifiers (Below.mem_of_part? h)
  have hlast (names : List EsNode) : Within n (last names) := inferInstance
  clear_value last clause?
  cases clause? with
  | some clause =>
    have hclause := hnames clause rfl
    infer_instance
  | none => infer_instance

instance : Within n (importDefault n) := by unfold importDefault; infer_instance

instance : Within n (namespaceImport n) := by unfold namespaceImport; infer_instance

instance : Within n (givenName n) := by unfold givenName; infer_instance

instance : Within n (importSpecifier n) := by unfold importSpecifier; infer_instance

instance : Within n (importAttribute n) := by unfold importAttribute; infer_instance

instance : Within n (attributesObject n) := by
  have hproperties : Within n ((n.partsOf .element).mapM fun element => do
      let key ← child element .name
      let value ← child element .value
      finish element .property
        (propertyParts (.flag .isComputed false) key "init" false false false value)) :=
    within_mapParts fun element hm => .upChild inferInstance hm
  unfold attributesObject
  infer_instance

instance : Within n (importEquals n) := by unfold importEquals; infer_instance

instance (type : NodeType) (f : Field) : Within n (wrappedExpression n type f) := by
  unfold wrappedExpression
  infer_instance

lemma within_namedExports {clause : Node} (h : clause ∈ n.children) :
    Within n (namedExports n clause) := by
  have hspecifiers : Within n (children clause .element) := .upChild inferInstance h
  unfold namedExports
  infer_instance

instance : Within n (exportAll n) := by
  have hexported : Within n ((n.part? .exportClause).mapM (child · .name)) :=
    within_mapPart fun clause hm => .upChild inferInstance hm
  unfold exportAll
  infer_instance

instance : Within n (exportDeclaration n) := by
  unfold exportDeclaration
  split
  · exact .ite (within_namedExports (Below.mem_of_part? ‹_›)) inferInstance
  · infer_instance

instance : Within n (exportSpecifier n) := by unfold exportSpecifier; infer_instance

instance : Within n (exportAssignment n) := by unfold exportAssignment; infer_instance

instance : Within n (namespaceExport n) := by unfold namespaceExport; infer_instance

/-! ### Functions -/

instance : Within n (signature n) := by unfold signature; infer_instance

instance : Within n (functionDeclaration n) := by unfold functionDeclaration; infer_instance

instance : Within n (functionExpression n) := by unfold functionExpression; infer_instance

instance : Within n (arrowFunction n) := by unfold arrowFunction; infer_instance

instance (async : Part) (generator : Bool) : Within n (methodValue n async generator) := by
  unfold methodValue
  infer_instance

instance : Within n (propertySignature n) := by unfold propertySignature; infer_instance

instance : Within n (methodSignature n) := by unfold methodSignature; infer_instance

instance : Within n (indexSignature n) := by unfold indexSignature; infer_instance

instance (type : NodeType) : Within n (callSignature n type) := by
  unfold callSignature
  infer_instance

instance : Within n (functionType n) := by unfold functionType; infer_instance

/-! ### Classes -/

instance : Within n (superClass n) := by
  unfold superClass
  split
  · infer_instance
  · rename_i first h
    have hmem : first ∈ n.children := Below.mem_of_partsOf (List.mem_of_mem_head? h)
    have hname : Within n (child first .typeName) := .upChild inferInstance hmem
    have hargs : Within n (typeArguments? first) := .upChild inferInstance hmem
    infer_instance

instance (type : NodeType) : Within n (heritageTypes n type) :=
  within_mapParts fun _ hm => .upChild inferInstance hm

instance (h : Heritage) : Within n (heritageStep h n) := by unfold heritageStep; infer_instance

instance (type : NodeType) (f : Field) (members : List EsNode) :
    Within n₀ (memberBody n type f members) := by
  unfold memberBody
  infer_instance

instance (type : NodeType) : Within n (classLike n type) := by
  have hheritage : Within n ((n.partsOf .heritage).foldlM heritageStep {}) :=
    .foldlM _ (fun h clause hm => .upChild inferInstance (Below.mem_of_partsOf hm)) _
  have hmembers : Within n (((n.partsOf .member).filter
      (!·.isForm .semicolonClassElement)).mapM (convertPart n ·)) :=
    .mapM _ fun m hm => within_part (Below.mem_of_partsOf (List.mem_filter.1 hm).1)
  unfold classLike
  infer_instance

instance : Within n (classDeclaration n) := by unfold classDeclaration; infer_instance

instance : Within n (propertyDeclaration n) := by unfold propertyDeclaration; infer_instance

instance : Within n (objectMethod n) := by unfold objectMethod; infer_instance

instance : Within n (classMethod n) := by unfold classMethod; infer_instance

instance : Within n (method n) := .ofRead fun _ => inferInstance

instance : Within n (constructorMember n) := by unfold constructorMember; infer_instance

instance : Within n (staticBlock n) :=
  within_require fun _ hm => .bind (.upChild inferInstance hm) fun _ => inferInstance

instance : Within n (interfaceDeclaration n) := by
  have hextended :
      Within n ((clausesOf n .extendsKw).mapM (heritageTypes · .tsInterfaceHeritage)) :=
    .mapM _ fun m hm =>
      .upChild inferInstance (Below.mem_of_partsOf (List.mem_filter.1 hm).1)
  unfold interfaceDeclaration
  infer_instance

instance : Within n (typeAlias n) := by unfold typeAlias; infer_instance

instance : Within n (enumDeclaration n) := by unfold enumDeclaration; infer_instance

instance : Within n (enumMember n) := by unfold enumMember; infer_instance

/-! ### Elements -/

instance : Within n₀ (jsxIdentifier n) := by unfold jsxIdentifier; infer_instance

instance : Within n₀ (jsxName n) := by unfold jsxName; infer_instance

instance : Within n₀ (jsxTagName n) := by
  induction n using jsxTagName.induct with
  | case1 label object property hk ih =>
    unfold jsxTagName
    simp only [hk]
    infer_instance
  | case2 label parts h =>
    unfold jsxTagName
    split
    · exact (h _ _ ‹_› rfl).elim
    · infer_instance

instance (native : Option Node) (r : Span) (selfClosing : Bool) :
    Within n (openingElement native n r selfClosing) := by
  refine within_require fun _ _ => .bind inferInstance fun _ => .bind inferInstance fun _ => ?_
  extract_lets last
  split
  · rename_i list hlist
    have hattributes : Within n (children list .element) :=
      .upChild inferInstance (Below.mem_of_part? hlist)
    infer_instance
  · infer_instance

instance : Within n (jsxOpening n) := by unfold jsxOpening; infer_instance

instance : Within n (jsxSelfClosing n) := by unfold jsxSelfClosing; infer_instance

instance : Within n (jsxClosing n) := by unfold jsxClosing; infer_instance

instance : Within n (jsxElement n) := by unfold jsxElement; infer_instance

instance : Within n (jsxFragment n) := by unfold jsxFragment; infer_instance

instance : Within n (jsxAttribute n) := by unfold jsxAttribute; infer_instance

instance : Within n (jsxExpression n) := by unfold jsxExpression; infer_instance

/-! ### Statements -/

instance : Within n (block n) := .ofRead fun _ => inferInstance

instance (type : NodeType) (f : Field) (r : Role) : Within n (optionalExpression n type f r) := by
  unfold optionalExpression
  infer_instance

instance : Within n (ifStatement n) := by unfold ifStatement; infer_instance

instance : Within n (doStatement n) := by unfold doStatement; infer_instance

instance : Within n (whileStatement n) := by unfold whileStatement; infer_instance

instance : Within n (forStatement n) := by unfold forStatement; infer_instance

instance : Within n (forEachStatement n) := by unfold forEachStatement; infer_instance

instance : Within n (withStatement n) := by unfold withStatement; infer_instance

instance : Within n (labeledStatement n) := by unfold labeledStatement; infer_instance

instance : Within n (switchStatement n) := by
  refine .bind inferInstance fun discriminant => within_require fun m hm => ?_
  exact .bind (.upChild inferInstance hm) fun cases => inferInstance

instance : Within n (caseClause n) := by unfold caseClause; infer_instance

instance : Within n (tryStatement n) := by unfold tryStatement; infer_instance

instance : Within n (boundName n) := by unfold boundName; infer_instance

instance : Within n (catchClause n) := by
  have hparam : Within n ((n.part? .variableDeclaration).mapM boundName) :=
    within_mapPart fun m hm => .upChild inferInstance hm
  unfold catchClause
  infer_instance

instance : Within n (variableStatement n) :=
  within_require fun _ hm => .bind (.upChild inferInstance hm) fun _ => inferInstance

instance : Within n (variableDeclarationList n) := by unfold variableDeclarationList; infer_instance

instance : Within n (variableDeclarator n) := by unfold variableDeclarator; infer_instance

/-! ### Rules -/

section Rules

variable {f : Form}

lemma within_expressionForm (p : Convert EsNode) (h : expressionForm n f = some p) :
    Within n p := by
  unfold expressionForm at h
  split at h <;> cases h <;> infer_instance

lemma within_statementForm (p : Convert EsNode) (h : statementForm n f = some p) : Within n p := by
  unfold statementForm at h
  split at h <;> cases h <;> infer_instance

lemma within_declarationForm (p : Convert EsNode) (h : declarationForm n f = some p) :
    Within n p := by
  unfold declarationForm at h
  split at h <;> cases h <;> infer_instance

lemma within_typeForm (p : Convert EsNode) (h : typeForm n f = some p) : Within n p := by
  unfold typeForm at h
  split at h <;> cases h <;> infer_instance

lemma within_elementForm (p : Convert EsNode) (h : elementForm n f = some p) : Within n p := by
  unfold elementForm at h
  split at h <;> cases h <;> infer_instance

lemma within_orElse {o o' : Option (Convert α)} (h : ∀ p, o = some p → Within n p)
    (h' : ∀ p, o' = some p → Within n p) : ∀ p, (o <|> o') = some p → Within n p := by
  cases o with
  | some q => exact h
  | none => exact h'

instance : Within n (ruleFor n f) := by
  unfold ruleFor
  cases h : expressionForm n f <|> statementForm n f <|> declarationForm n f <|> typeForm n f <|>
      elementForm n f with
  | some p =>
    refine within_orElse within_expressionForm (within_orElse within_statementForm ?_) p h
    exact within_orElse within_declarationForm (within_orElse within_typeForm within_elementForm)
  | none => exact inferInstanceAs (Within n (unexpected n))

instance : Within n (byRule n) := by
  unfold byRule
  split <;> infer_instance

end Rules

/-! ### Trees -/

/-- Converts the levels of a tree down to `depth`, below which nodes are converted as `beyond`
does. -/
def nodeAbove (beyond : Place → Node → Build EsNode) (file : SourceFile) :
    Nat → Place → Node → Build EsNode
  | 0 => beyond
  | depth + 1 => fun place n => byRule n { file, place, recur := nodeAbove beyond file depth }

lemma node_eq_nodeAbove (file : SourceFile) (depth : Nat) :
    node file depth = nodeAbove (node file 0) file depth := by
  induction depth with
  | zero => rfl
  | succ depth ih =>
    funext place n
    rw [node, ih]
    rfl

/-- **The levels of a tree are enough to convert it.** -/
theorem nodeAbove_eq (file : SourceFile) {beyond beyond' : Place → Node → Build EsNode}
    {depth depth' : Nat} (place : Place) (h : n.height ≤ depth) (h' : n.height ≤ depth') :
    nodeAbove beyond file depth place n = nodeAbove beyond' file depth' place n := by
  have hpos := height_pos n
  induction depth generalizing n depth' place with
  | zero => omega
  | succ depth ih =>
    obtain ⟨depth', rfl⟩ : ∃ k, depth' = k + 1 := ⟨depth' - 1, by omega⟩
    let env : Env := { file, place, recur := nodeAbove beyond' file depth' }
    suffices hbelow : ∀ place, ∀ m ∈ n.descendants,
        nodeAbove beyond file depth place m = env.recur place m from Within.same hbelow
    intro place m hm
    have hlt := Tree.height_lt_of_mem_descendants hm
    have hm : m.height ≤ depth := by omega
    have hm' : m.height ≤ depth' := by omega
    exact ih place hm hm' (height_pos m)

instance : Within n (program n) := .bind inferInstance fun _ => .ofRead fun _ => inferInstance

/-- As many steps down as the tree has levels find all declarations that a dotted name nests. -/
lemma innerDeclarations_of_height {depth depth' : Nat} (h : n.height ≤ depth)
    (h' : n.height ≤ depth') : innerDeclarations depth n = innerDeclarations depth' n := by
  have hpos := height_pos n
  induction depth generalizing n depth' with
  | zero => omega
  | succ depth ih =>
    obtain ⟨depth', rfl⟩ : ∃ k, depth' = k + 1 := ⟨depth' - 1, by omega⟩
    unfold innerDeclarations
    split
    · rename_i inner hinner
      have hlt := Tree.height_lt_of_mem (Below.mem_of_part? hinner)
      have hd : inner.height ≤ depth := by omega
      have hd' : inner.height ≤ depth' := by omega
      rw [ih hd hd' (height_pos inner)]
    · rfl

end Convert

/-- **The conversion of a file does not depend on what is below the levels of its tree.** -/
theorem program_above {file : SourceFile} (beyond : Place → Node → Build EsNode) {depth : Nat}
    (h : file.root.height ≤ depth) :
    Convert.program file.root
        { fileEnv file with recur := Convert.nodeAbove beyond file depth } =
      Convert.program file.root (fileEnv file) := by
  refine Within.same (n := file.root) fun place m hm => ?_
  have hlt := Tree.height_lt_of_mem_descendants hm
  rw [fileEnv, Convert.node_eq_nodeAbove]
  exact Convert.nodeAbove_eq file place (by omega) (by omega)

end EstreeLint.Estree
