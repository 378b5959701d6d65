import EstreeLint.Proofs.Once.Adds

/-!
The rules for tokens, for types and for expressions read their parts once.

For each rule it is said which parts it reads, and how often it takes the number of its own node. A
rule that is used within the rule for the node above is bounded by the node.
-/

namespace EstreeLint.Estree.Convert

open Registry (Grew)

variable {α β γ : Type} {env : Env} {x cap : Nat} {n m : Node} {r : Role} {own : Nat}
  {roles roles' : List Role} {k : Nat}

/-! ### Looking and making -/

section Silent

variable {p : Nat} {w : Span} {k : TokenKind} {e : EsNode}

instance : Silent env x (tokensOf n) := .look fun h => by cases h; rfl

instance : Silent env x (sourceOf w) := .look fun h => by cases h; rfl

instance : Silent env x isTarget := .look fun h => by cases h; rfl

instance : Silent env x (tokenAt p) := .look fun h => by cases h; rfl

instance : Silent env x (findToken p k) := .look fun h => by cases h; rfl

instance : Silent env x (restart e p) := .look fun h => by cases h; rfl

instance : Silent env x (resettle e) := .look fun h => by cases h; rfl

instance : Silent env x (unexpected n : Convert α) := ⟨fun _ => nofun⟩

instance : Silent env x (missing n : Convert α) := ⟨fun _ => nofun⟩

instance {list : NodeList} : Silent env x (angleRange list) := by unfold angleRange; infer_instance

instance {type : Option EsNode} {question : Option Span} :
    Silent env x (declare e type question) := by
  unfold declare
  infer_instance

instance {decorators : List EsNode} : Silent env x (decorate e decorators) := by
  unfold decorate
  infer_instance

instance : Silent env x (directiveText? n) := by
  unfold directiveText?
  refine .ite inferInstance ?_
  split <;> infer_instance

end Silent

section Make

variable {native : Option Node} {w : Span} {t : NodeType} {ps : List Part}

lemma make_grew {r s : Registry} {a : EsNode} (hr : r.Sound env.file)
    (hrun : make native w t ps env r = .ok (a, s)) :
    Grew env.file x (if native.map Tree.index = some x then 1 else 0) r s := by
  cases hrun
  exact .next hr _

instance : Silent env x (make none w t ps) := ⟨fun hr hrun => make_grew hr hrun⟩

instance : Adds env x cap n (make (some n) w t ps) 1 [] where
  grew _ hr hrun := (make_grew hr hrun).mono (by simp)

instance : Adds env x cap n (finish n t ps) 1 [] := by unfold finish; infer_instance

instance {f : Field} {members : List EsNode} : Silent env x (memberBody n t f members) := by
  unfold memberBody
  infer_instance

/-- An export is one more node of the declaration. -/
instance {declaration : EsNode} : Adds env x cap n (wrapExport n declaration) 1 [] := by
  unfold wrapExport
  split
  · refine .after inferInstance fun ⟨_, after⟩ => ?_
    dsimp only
    split <;> infer_instance
  · exact .silent inferInstance

end Make

/-! ### Parts -/

section Parts

lemma load_le_cost (hm : m ∈ n.partsOf r) : load x m ≤ cost x n [r] := load_le_loads hm

lemma adds_of_part {p : Convert α} (hm : n.part? r = some m) (h : Bounded env x cap n m p) :
    Adds env x cap n p 0 [r] where
  grew hn hr hrun := by
    refine (h.grew hn (Below.mem_of_part? hm) hr hrun).mono ?_
    exact Nat.le_add_left_of_le (Nat.mul_le_mul_left _ (load_le_cost (mem_partsOf_of_part? hm)))

lemma adds_requireOf {f : Node → Convert α}
    (h : ∀ m, n.part? r = some m → Adds env x cap n (f m) own roles) :
    Adds env x cap n (require n r >>= f) own roles := by
  unfold require
  split
  · next m hm =>
    rw [pure_bind]
    exact h m hm
  · exact ⟨fun _ _ hrun => by cases hrun⟩

/-- A part that must be there. -/
instance {f : Node → Convert α} [hf : ∀ m, Bounded env x cap n m (f m)] :
    Adds env x cap n (require n r >>= f) 0 [r] := adds_requireOf fun m hm => adds_of_part hm (hf m)

/-- A part that must be there, and what comes behind it. -/
instance {f : Node → Convert α} {g : Node → α → Convert β} [hf : ∀ m, Bounded env x cap n m (f m)]
    [hg : ∀ m a, Adds env x cap n (g m a) own roles] :
    Adds env x cap n (require n r >>= fun m => f m >>= g m) own (r :: roles) := by
  refine adds_requireOf fun m hm => ?_
  have hbind := (adds_of_part hm (hf m)).bind (hg m)
  rwa [Nat.zero_add] at hbind

lemma adds_mapM {f : Node → Convert α} {ms : List Node} (hms : ∀ m ∈ ms, m ∈ n.children)
    (hload : loads x ms ≤ cost x n roles) (h : ∀ m ∈ ms, Bounded env x cap n m (f m)) :
    Adds env x cap n (ms.mapM f) 0 roles where
  grew hn hr hrun := by
    refine (Bounded.mapM ms h hms hn hr hrun).mono ?_
    exact Nat.le_add_left_of_le (Nat.mul_le_mul_left _ hload)

lemma adds_mapPartsOf {f : Node → Convert α} (h : ∀ m ∈ n.partsOf r, Bounded env x cap n m (f m)) :
    Adds env x cap n ((n.partsOf r).mapM f) 0 [r] :=
  adds_mapM (fun _ hm => Below.mem_of_partsOf hm) (Nat.le_refl _) h

/-- The parts with a role. -/
instance {f : Node → Convert α} [hf : ∀ m, Bounded env x cap n m (f m)] :
    Adds env x cap n ((n.partsOf r).mapM f) 0 [r] := adds_mapPartsOf fun m _ => hf m

/-- Some of the parts with a role. -/
instance {f : Node → Convert α} {q : Node → Bool} [hf : ∀ m, Bounded env x cap n m (f m)] :
    Adds env x cap n (((n.partsOf r).filter q).mapM f) 0 [r] :=
  adds_mapM (fun _ hm => Below.mem_of_partsOf (List.mem_filter.1 hm).1) (loads_filter_le ..)
    fun m _ => hf m

lemma adds_mapM? {o : Option γ} {f : γ → Convert β}
    (h : ∀ c ∈ o, Adds env x cap n (f c) own roles) : Adds env x cap n (o.mapM f) own roles := by
  cases o with
  | none => exact .silent (inferInstanceAs (Silent env x (pure none)))
  | some c =>
    have hc := h c rfl
    exact inferInstanceAs (Adds env x cap n (some <$> f c) own roles)

instance (priority := low) {o : Option γ} {f : γ → Convert β}
    [h : ∀ c, Adds env x cap n (f c) own roles] : Adds env x cap n (o.mapM f) own roles :=
  adds_mapM? fun c _ => h c

/-- A part that may be there. -/
instance {f : Node → Convert α} [hf : ∀ m, Bounded env x cap n m (f m)] :
    Adds env x cap n ((n.part? r).mapM f) 0 [r] := adds_mapM? fun m hm => adds_of_part hm (hf m)

lemma foldlM_grew {f : β → Node → Convert β} (ms : List Node)
    (h : ∀ b, ∀ m ∈ ms, Bounded env x cap n m (f b m)) (hms : ∀ m ∈ ms, m ∈ n.children) {b c : β}
    {r s : Registry} (hn : n ∈ env.file.root.nodes) (hr : r.Sound env.file)
    (hrun : ms.foldlM f b env r = .ok (c, s)) : Grew env.file x (cap * loads x ms) r s := by
  induction ms generalizing r b with
  | nil =>
    cases hrun
    exact .refl hr
  | cons m ms ih =>
    rw [List.foldlM_cons] at hrun
    obtain ⟨b', t, hb', hrun⟩ := run_bind_eq_ok hrun
    have hgrew := (h b m (by simp)).grew hn (hms m (by simp)) hr hb'
    refine (hgrew.trans (ih (fun b m hm => h b m (by simp [hm])) (fun m hm => hms m (by simp [hm]))
      hgrew.sound hrun)).mono ?_
    rw [loads_cons, Nat.mul_add]

/-- What is gathered from the parts with a role. -/
instance {f : β → Node → Convert β} {b : β} [hf : ∀ b m, Bounded env x cap n m (f b m)] :
    Adds env x cap n ((n.partsOf r).foldlM f b) 0 [r] where
  grew hn hr hrun := by
    refine (foldlM_grew _ (fun b m _ => hf b m) (fun _ hm => Below.mem_of_partsOf hm) hn hr
      hrun).mono ?_
    exact Nat.le_add_left ..

variable [hcounted : Counted env x cap]

/-- A part takes what is due to it. -/
lemma convertPart_grew {b : Bool} {r s : Registry} {a : EsNode} (hn : n ∈ env.file.root.nodes)
    (hm : m ∈ n.children) (hr : r.Sound env.file) (hrun : convertPart n m b env r = .ok (a, s)) :
    Registry.Grew env.file x (cap * due x m) r s :=
  hcounted.grew hn hm rfl hr (show env.recur (env.place.below n b) m r = .ok (a, s) from hrun)

instance {b : Bool} : Bounded env x cap n m (convertPart n m b) where
  grew hn hm hr hrun :=
    (convertPart_grew hn hm hr hrun).mono (Nat.mul_le_mul_left _ due_le_load)

instance : Adds env x cap n (child n r) 0 [r] := by unfold child; infer_instance

instance : Adds env x cap n (target n r) 0 [r] := by unfold target; infer_instance

instance : Adds env x cap n (child? n r) 0 [r] := by unfold child?; infer_instance

instance : Adds env x cap n (children n r) 0 [r] := by unfold children; infer_instance

instance {b : Bool} : Adds env x cap n (childrenOrHoles n r b) 0 [r] := by
  unfold childrenOrHoles
  infer_instance

instance : Adds env x cap n (decorators n) 0 [.modifier] := by unfold decorators; infer_instance

instance : Bounded env x cap n m (child m r) := .of_adds inferInstance (Nat.zero_le _) (by simp)

instance : Bounded env x cap n m (children m r) := .of_adds inferInstance (Nat.zero_le _) (by simp)

end Parts

/-! ### Tokens -/

section Leaf

variable {k : TokenKind}

instance : Adds env x cap n (literal n k) 1 [] := by unfold literal; infer_instance

instance : Adds env x cap n (templateElement n k) 1 [] := by unfold templateElement; infer_instance

instance : Adds env x cap n (identifier n) 1 [] := by unfold identifier; infer_instance

instance : Adds env x cap n (jsxText n) 1 [] := by unfold jsxText; infer_instance

/-- A template without expressions is one node over its only piece. -/
instance : Adds env x cap n (token n k) 2 [] := by
  have hone {p : Convert EsNode} (h : Adds env x cap n p 1 []) : Adds env x cap n p 2 [] :=
    h.mono (Nat.le_succ 1) (Nat.le_refl _)
  unfold token
  split
  case h_10 => infer_instance
  case h_16 =>
    split
    · exact hone inferInstance
    · exact .silent inferInstance
  all_goals exact hone inferInstance

end Leaf

/-! ### Types -/

section Types

variable [hcounted : Counted env x cap] {t : NodeType} {f : Field}

instance : Adds env x cap n (declaredType? n) 0 [.declaredType] := by
  unfold declaredType?
  infer_instance

instance : Adds env x cap n (angleList? n r t) 0 [r] := by unfold angleList?; infer_instance

instance : Adds env x cap n (typeParameters? n) 0 [.typeParameter] := by
  unfold typeParameters?
  infer_instance

instance : Adds env x cap n (typeArguments? n) 0 [.typeArgument] := by
  unfold typeArguments?
  infer_instance

instance : Adds env x cap n (wrappedType n t f) 1 [.type] := by unfold wrappedType; infer_instance

instance : Adds env x cap n (listedTypes n t f) 1 [.element] := by
  unfold listedTypes
  infer_instance

instance : Adds env x cap n (typeParameter n) 1 [.name, .constraint, .default] := by
  unfold typeParameter
  infer_instance

instance : Adds env x cap n (typeReference n) 1 [.typeName, .typeArgument] := by
  unfold typeReference
  infer_instance

instance : Adds env x cap n (typeQuery n) 1 [.typeName, .typeArgument] := by
  unfold typeQuery
  infer_instance

instance : Adds env x cap n (typePredicate n) 1 [.parameterName, .type] := by
  unfold typePredicate
  infer_instance

instance : Adds env x cap n (qualifiedName n) 1 [.left, .right] := by
  unfold qualifiedName
  infer_instance

instance : Adds env x cap n (conditionalType n) 1
    [.checkType, .extendsType, .trueType, .falseType] := by
  unfold conditionalType
  infer_instance

instance : Adds env x cap n (typeOperator n) 1 [.type] := by
  unfold typeOperator
  split
  · infer_instance
  · exact .silent inferInstance

instance : Adds env x cap n (indexedAccessType n) 1 [.objectType, .indexType] := by
  unfold indexedAccessType
  infer_instance

/-- The parameter of a mapped type is taken apart by the rule for the type. -/
instance : Adds env x cap n (mappedType n) 1 [.typeParameter, .nameType, .type] := by
  have hparam (param : Node) : Bounded env x cap n param (do
      let key ← child param .name
      let constraint ← child param .constraint
      return (key, constraint)) := .of_adds inferInstance (Nat.zero_le _) (by decide)
  have hsame : mappedType n = (do
      let (key, constraint) ← require n .typeParameter >>= fun param => do
        let key ← child param .name
        let constraint ← child param .constraint
        return (key, constraint)
      let nameType ← child? n .nameType
      let type ← child? n .type
      finish n .tsMappedType
        [.one .constraint constraint, .one .key key, .one? .nameType nameType,
          mappedMark n .question .optional, mappedMark n .readonlyMark .readonly,
          .extra .type type]) := by
    simp only [mappedType, bind_assoc, pure_bind]
  rw [hsame]
  infer_instance

/-- The word `null` is taken for its type. -/
instance : Adds env x cap n (literalType n) 1 [.type] := by
  refine adds_requireOf fun inner hinner => .ite (fun _ => ?_) fun _ => inferInstance
  have hword : Bounded env x cap n inner (finish inner .tsNullKeyword) :=
    .of_adds inferInstance (Nat.le_refl _) (by decide)
  exact (adds_of_part hinner hword).mono (Nat.zero_le _) (Nat.le_refl _)

instance : Adds env x cap n (namedTupleMember n) 2 [.name, .type] := by
  unfold namedTupleMember
  infer_instance

instance : Adds env x cap n (templateParts n) 0 [.head, .span] := by
  have hspan (span : Node) : Bounded env x cap n span (do
      let e ← child span .expression
      let piece ← child span .literal
      return (e, piece)) := .of_adds inferInstance (Nat.zero_le _) (by decide)
  unfold templateParts
  infer_instance

instance : Adds env x cap n (templateLiteralType n) 1 [.head, .span] :=
  .seq 0 1 [.head, .span] [] inferInstance fun _ => inferInstance

instance {argument : Node} : Bounded env x cap n m (importOptions n argument m) := by
  unfold importOptions
  infer_instance

instance :
    Adds env x cap n (importType n) 2 [.argument, .attributes, .qualifier, .typeArgument] := by
  refine .after inferInstance fun whole => ?_
  extract_lets rest
  have hrest (w : Span) : Adds env x cap n (rest w) 2
      [.argument, .attributes, .qualifier, .typeArgument] := inferInstance
  clear_value rest
  refine .ite (fun _ => ?_) fun _ => .after inferInstance hrest
  exact .after inferInstance fun ⟨_, _⟩ => .after inferInstance fun ⟨_, _⟩ =>
    .after inferInstance hrest

end Types

/-! ### Expressions -/

section Expressions

variable [hcounted : Counted env x cap] {t : NodeType}

instance : Adds env x cap n (arrayLiteral n) 1 [.element] := by unfold arrayLiteral; infer_instance

instance : Adds env x cap n (objectLiteral n) 1 [.element] := by
  unfold objectLiteral
  infer_instance

instance : Adds env x cap n (propertyAssignment n) 1 [.name, .value] := by
  unfold propertyAssignment
  infer_instance

instance : Adds env x cap n (spread n) 1 [.expression] := by unfold spread; infer_instance

instance : Adds env x cap n (importExpression n) 1 [.argument] := by
  unfold importExpression
  split
  · exact .silent inferInstance
  · next source rest hparts =>
    have hmem (m : Node) (hm : m ∈ source :: rest) : m ∈ n.children :=
      Below.mem_of_partsOf (hparts ▸ hm)
    refine ⟨fun {r s a} hn hr hrun => ?_⟩
    obtain ⟨e, r₁, he, hrun⟩ := run_bind_eq_ok hrun
    obtain ⟨options, r₂, hoptions, hrun⟩ := run_bind_eq_ok hrun
    have hsource : Bounded env x cap n source (convertPart n source) := inferInstance
    have h₁ := hsource.grew hn (hmem source (by simp)) hr he
    have h₂ : Grew env.file x (cap * loads x rest) r₁ r₂ := by
      cases rest with
      | nil =>
        cases hoptions
        exact (Grew.refl h₁.sound).mono (Nat.zero_le _)
      | cons first others =>
        have hfirst : Bounded env x cap n first (some <$> convertPart n first) := inferInstance
        refine (hfirst.grew hn (hmem first (by simp)) h₁.sound hoptions).mono ?_
        exact Nat.mul_le_mul_left _ (load_le_loads (by simp))
    have hlast : Adds env x cap n (finish n .importExpression
        [.one? .options options, .one .source e]) 1 [] := inferInstance
    refine ((h₁.trans h₂).trans (hlast.grew hn h₂.sound hrun)).mono (Nat.le_of_eq ?_)
    simp only [cost, hparts, loads_cons, Nat.mul_add]
    omega

instance : Adds env x cap n (newExpression n) 1 [.expression, .typeArgument, .argument] := by
  unfold newExpression
  infer_instance

instance : Adds env x cap n (taggedTemplate n) 1 [.tag, .typeArgument, .template] := by
  unfold taggedTemplate
  infer_instance

instance : Adds env x cap n (templateExpression n) 1 [.head, .span] :=
  .seq 0 1 [.head, .span] [] inferInstance fun _ => inferInstance

instance {operator : String} : Adds env x cap n (wordOperator n operator) 1 [.expression] := by
  unfold wordOperator
  infer_instance

instance : Adds env x cap n (unaryExpression n) 1 [.operand] := by
  unfold unaryExpression
  split
  · split
    · infer_instance
    · exact .silent inferInstance
  · exact .silent inferInstance

instance : Adds env x cap n (conditionalExpression n) 1 [.condition, .whenTrue, .whenFalse] := by
  unfold conditionalExpression
  infer_instance

instance : Adds env x cap n (yieldExpression n) 1 [.expression] := by
  unfold yieldExpression
  infer_instance

instance : Adds env x cap n (typedExpression n t) 1 [.type, .expression] := by
  unfold typedExpression
  infer_instance

instance : Adds env x cap n (metaProperty n) 1 [.name] := by
  unfold metaProperty
  split
  · refine .after inferInstance fun w => .after inferInstance fun ⟨_, r⟩ => ?_
    dsimp only
    infer_instance
  · exact .silent inferInstance

instance : Adds env x cap n (instantiation n) 1 [.typeName, .typeArgument] := by
  refine .seq 0 1 [.typeName] [.typeArgument] inferInstance fun e => ?_
  refine .seq 0 1 [.typeArgument] [] inferInstance fun args => ?_
  split
  · infer_instance
  · exact .silent inferInstance

instance : Adds env x cap n (heritageType n t) 1 [.typeName, .typeArgument] := by
  unfold heritageType
  infer_instance

instance : Bounded env x cap n m (heritageType m t) :=
  .of_adds inferInstance (Nat.le_refl _) (by decide)

end Expressions

/-! ### Links and commas -/

/-- A chain comes from the link around which it stands. -/
def Chained (file : SourceFile) (r : Registry) (a : EsNode) : Prop :=
  a.type = .chainExpression → ∃ c y, a.children = [c] ∧ c.field = .expression ∧
    r.nativeOf? a.id = some y ∧ r.nativeOf? c.id = some y ∧ Mobile file y

lemma Chained.later {file : SourceFile} {r s : Registry} {a : EsNode} (h : Chained file r a)
    (hrs : r.Before file s) : Chained file s a := fun ht => by
  obtain ⟨c, y, hcs, hf, ha, hc, hy⟩ := h ht
  have hle := fun i hi =>
    (hrs.nativeOf? (Registry.lt_size_of_nativeOf? (i := i) (m := y) hi)).trans hi
  exact ⟨c, y, hcs, hf, hle _ ha, hle _ hc, hy⟩

section Links

variable {r s : Registry} {a e link : EsNode} {t : NodeType} {g : Field} {ps : List Part}

/-- A link and the chain around it come from the same node; the chain that the link continues is
taken apart. -/
lemma link_grew (hn : n ∈ env.file.root.nodes) (hr : r.Sound env.file)
    (he : Chained env.file r e)
    (hsubject : ∀ l : EsNode, l.children = ps.flatMap Part.nodes → l.child? g = some (e.inField g))
    (hrun : (finish n t ps >>= (wrapChain n · g)) env r = .ok (a, s)) :
    Grew env.file x (if n.index = x then 2 else 0) r s := by
  obtain ⟨link, r₁, hmade, hwrapped⟩ := run_bind_eq_ok hrun
  obtain ⟨-, -, -, hcs, -⟩ := finish_run hmade
  have hfinish : Adds env x 1 n (finish n t ps) 1 [] := inferInstance
  have hlink := hfinish.grew hn hr hmade
  have he₁ : Chained env.file r₁ e := he.later hlink.before
  have hsub := hsubject link hcs
  have hchains (c : EsNode) (hc : link.child? g = some c) (ht : c.type = .chainExpression) :
      ∃ k, c.children = [k] ∧ k.field = .expression := by
    obtain rfl := Option.some.inj (hsub.symm.trans hc)
    cases e
    obtain ⟨k, -, hk, hf, -⟩ := he₁ ht
    exact ⟨k, hk, hf⟩
  have hmake {w : Span} {qs : List Part} :
    Adds env x 1 n (make (some n) w .chainExpression qs) 1 [] :=
    inferInstance
  rcases wrapChain_run hchains hwrapped with
    ⟨-, ⟨-, rfl, rfl⟩ | ⟨-, hrun'⟩⟩ | ⟨c, k, hc, ht, hck, hrun'⟩
  · refine hlink.mono ?_
    simp only [cost, Nat.mul_zero, Nat.add_zero]
    split <;> omega
  · refine (hlink.trans (hmake.grew hn hlink.sound hrun')).mono ?_
    simp only [cost, Nat.mul_zero, Nat.add_zero]
    split <;> omega
  · obtain rfl := Option.some.inj (hsub.symm.trans hc)
    obtain ⟨k', y, hk', -, hey, hky, hy⟩ := he₁ (by cases e; exact ht)
    obtain rfl : k = k' := by
      cases e
      exact (List.cons.inj (hck.symm.trans hk')).1
    have hid : (e.inField g).id = e.id := by cases e; rfl
    have hredirect : Grew env.file x 0 r₁ (r₁.redirect (e.inField g).id k.id) := by
      rw [hid]
      refine .redirect hlink.sound (fun z hz => Option.some.inj (hey.symm.trans hz) ▸ hy)
        (Option.isSome_of_mem hky) fun m hm hcomma hnative => ⟨m, hm, hcomma, ?_, .inl rfl⟩
      rw [hky, ← hey, hnative]
    refine ((hlink.trans hredirect).trans (hmake.grew hn hredirect.sound hrun')).mono ?_
    simp only [cost, Nat.mul_zero, Nat.add_zero]
    split <;> omega

/-- What is converted below is made of chains as they should be. -/
lemma child_chained {r' : Role} [Asked env (chainLaw env.file)] (hn : n ∈ env.file.root.nodes)
    (hr : r.Sound env.file)
    (hrun : child n r' env r = .ok (a, s)) : Chained env.file s a := by
  have hgives : Gives env (chainLaw env.file) .none (child n r') :=
    child_gives fun m hm =>
      Tree.mem_nodes_trans hn (Tree.mem_nodes_of_mem (Below.mem_of_partsOf hm))
  exact (hgives.moves trivial hr.kept hrun).good.root.chain

variable [hcounted : Counted env x cap]

/-- The rule for a link, from what it does before and after it has its subject. -/
lemma adds_link {p : EsNode → Convert α} {q : EsNode → α → List Part}
    (hp : ∀ e, Adds env x cap n (p e) 0 roles)
    (hsubject : ∀ e b, ∀ l : EsNode, l.children = (q e b).flatMap Part.nodes →
      l.child? g = some (e.inField g)) :
    Adds env x cap n (child n .expression >>= fun e => p e >>= fun b =>
      finish n t (q e b) >>= (wrapChain n · g)) 2 (.expression :: roles) where
  grew {r s a} hn hr hrun := by
    obtain ⟨e, r₁, he, hrun⟩ := run_bind_eq_ok hrun
    obtain ⟨b, r₂, hb, hrun⟩ := run_bind_eq_ok hrun
    have hchild : Adds env x cap n (child n .expression) 0 [.expression] := inferInstance
    have h₁ := hchild.grew hn hr he
    have h₂ := (hp e).grew hn h₁.sound hb
    have hasked := hcounted.asked
    have hchained := (child_chained hn hr he).later h₂.before
    refine ((h₁.trans h₂).trans (link_grew hn h₂.sound hchained (hsubject e b) hrun)).mono ?_
    simp only [cost, Nat.mul_add, ite_self]
    omega

instance : Adds env x cap n (memberExpression n) 2 [.expression, .argument, .name] := by
  have hsubject (computed : Bool) (e b : EsNode) (l : EsNode)
      (h : l.children = [Part.flag .isComputed computed, .one .object e,
        .flag .optional (n.part? .questionDot).isSome, .one .property b].flatMap Part.nodes) :
      l.child? .object = some (e.inField .object) := by
    cases e
    cases b
    rw [Tree.child?, h]
    rfl
  unfold memberExpression
  refine adds_link (fun e => ?_) (hsubject _)
  have hargument : Adds env x cap n (child n .argument) 0 [.argument] := inferInstance
  have hname : Adds env x cap n (child n .name) 0 [.name] := inferInstance
  split
  · exact hargument.mono (Nat.le_refl _) (Nat.le_add_right ..)
  · exact hname.mono (Nat.le_refl _) (Nat.le_add_left ..)

instance : Adds env x cap n (callExpression n) 2 [.expression, .typeArgument, .argument] := by
  have hsubject (e : EsNode) (b : Option EsNode × List EsNode) (l : EsNode)
      (h : l.children = [Part.list .arguments b.2, .one .callee e,
        .flag .optional (n.part? .questionDot).isSome, .extra .typeArguments b.1].flatMap
          Part.nodes) : l.child? .callee = some (e.inField .callee) := by
    have harguments : (b.2.map (·.inField .arguments)).find? (·.field == .callee) = none := by
      refine List.find?_eq_none.2 fun c hc => ?_
      obtain ⟨⟨l, cs⟩, -, rfl⟩ := List.mem_map.1 hc
      exact Bool.false_ne_true
    cases e
    rw [Tree.child?, h, List.flatMap_cons, List.find?_append, Part.nodes_list, harguments]
    rfl
  have himport : Adds env x cap n (importExpression n) 2 [.expression, .typeArgument, .argument] :=
    Adds.mono (h := inferInstance) (Nat.le_succ 1) (by simp only [cost]; omega)
  refine .ite (fun _ => himport) fun _ => ?_
  have hsame : (do
      let callee ← child n .expression
      let typeArgs ← typeArguments? n
      let args ← children n .argument
      let call ← finish n .callExpression
        [.list .arguments args, .one .callee callee,
          .flag .optional (n.part? .questionDot).isSome, .extra .typeArguments typeArgs]
      wrapChain n call .callee) = (do
      let callee ← child n .expression
      let x ← (do
        let typeArgs ← typeArguments? n
        let args ← children n .argument
        return (typeArgs, args))
      let call ← finish n .callExpression
        [.list .arguments x.2, .one .callee callee,
          .flag .optional (n.part? .questionDot).isSome, .extra .typeArguments x.1]
      wrapChain n call .callee) := by
    simp only [bind_assoc, pure_bind]
  rw [hsame]
  exact adds_link (fun e => inferInstance) hsubject

instance : Adds env x cap n (nonNull n) 2 [.expression] where
  grew {r s a} hn hr hrun := by
    have hasked := hcounted.asked
    obtain ⟨e, r₁, he, hrun⟩ := run_bind_eq_ok hrun
    have hchild : Adds env x cap n (child n .expression) 0 [.expression] := inferInstance
    have h₁ := hchild.grew hn hr he
    refine (h₁.trans (link_grew hn h₁.sound (child_chained hn hr he) (fun l hl => ?_) hrun)).mono ?_
    · cases e
      rw [Tree.child?, hl]
      rfl
    · rw [ite_self]
      omega

end Links

section Commas

variable {r s : Registry} {a : EsNode}

/-- The left side of a comma is a list of expressions of its own, and is taken up. -/
def continuesList (m : Node) (left : EsNode) : Bool :=
  left.type == .sequenceExpression && !m.isForm .parenthesizedExpression

/-- The expressions before the last one. -/
def earlierIn (m : Node) (left : EsNode) : List EsNode :=
  if continuesList m left then left.childrenIn .expressions else [left]

/-- What is converted as a child is the part with the role. -/
lemma child_run {role : Role} (h : child n role env r = .ok (a, s)) :
    ∃ m, n.part? role = some m ∧ convertPart n m false env r = .ok (a, s) := by
  unfold child require at h
  split at h
  · next m hm => exact ⟨m, hm, h⟩
  · cases h

/-- **What comes of a comma**: both sides are converted, and a list on the left is taken up. -/
theorem sequence_run (hrun : sequence n env r = .ok (a, s)) :
    ∃ m p left right r₁ r₂ r₃, n.part? .left = some m ∧ n.part? .right = some p ∧
      convertPart n m false env r = .ok (left, r₁) ∧
      convertPart n p false env r₁ = .ok (right, r₂) ∧
      finish n .sequenceExpression [.list .expressions (earlierIn m left ++ [right])] env r₂ =
        .ok (a, r₃) ∧
      s = if continuesList m left then r₃.redirect left.id a.id else r₃ := by
  obtain ⟨left, r₁, hleft, hrun⟩ := run_bind_eq_ok hrun
  obtain ⟨m, hm, hleft⟩ := child_run hleft
  simp only [hm, Option.any_some] at hrun
  obtain ⟨right, r₂, hright, hrun⟩ := run_bind_eq_ok hrun
  obtain ⟨p, hp, hright⟩ := child_run hright
  obtain ⟨whole, r₃, hwhole, hrun⟩ := run_bind_eq_ok hrun
  refine ⟨m, p, left, right, r₁, r₂, r₃, hm, hp, hleft, hright, ?_⟩
  cases hcontinues : continuesList m left with
  | true =>
    rw [continuesList] at hcontinues
    simp only [hcontinues, if_true] at hwhole hrun
    cases hrun
    exact ⟨by simpa only [earlierIn, continuesList, hcontinues, if_true] using hwhole, rfl⟩
  | false =>
    rw [continuesList] at hcontinues
    simp only [hcontinues, Bool.false_eq_true, if_false] at hwhole hrun
    cases hrun
    refine ⟨?_, rfl⟩
    simpa only [earlierIn, continuesList, hcontinues, Bool.false_eq_true, if_false] using hwhole

/-- The list comes from the comma. -/
lemma native_of_sequence (hrun : sequence n env r = .ok (a, s)) :
    a.type = .sequenceExpression ∧ s.nativeOf? a.id = some n.index := by
  obtain ⟨m, p, left, right, r₁, r₂, r₃, -, -, -, -, hwhole, rfl⟩ := sequence_run hrun
  obtain ⟨rfl, hid, htype, -⟩ := finish_run hwhole
  have hnative : (r₂.next (some n.index)).2.nativeOf? a.id = some n.index := by
    rw [Registry.nativeOf?_next, if_pos hid]
  refine ⟨htype, ?_⟩
  split
  · rw [Registry.nativeOf?_redirect, if_neg, hnative]
    rintro ⟨-, -, hnone⟩
    rw [hnative] at hnone
    cases hnone
  · exact hnative

/-- What is taken up is made of the comma on the left. -/
lemma comma_of_continues {left : EsNode} (hjoining : Joining env) (hn : n ∈ env.file.root.nodes)
    (hcomma : IsComma n) (hm : n.part? .left = some m)
    (hleft : convertPart n m false env r = .ok (left, s))
    (hcontinues : continuesList m left = true) :
    IsComma m ∧ s.nativeOf? left.id = some m.index := by
  obtain ⟨htype, hclosed⟩ := Bool.and_eq_true_iff.1 hcontinues
  obtain ⟨m', hm', hholder, -⟩ := hjoining.joins n hn hcomma
  obtain rfl := Option.some.inj (hm.symm.trans hm')
  refine hjoining.comma (fun g hg hk => ?_) hleft (beq_iff_eq.1 htype)
  simp only [holderForms, List.mem_cons, List.not_mem_nil, or_false] at hg
  rcases hg with rfl | rfl | rfl | rfl | rfl
  · simp [Tree.isForm, hk] at hclosed
  all_goals simp [Grammar.isHolder, hk] at hholder

variable [hcounted : Counted env x cap]

lemma sequence_adds (hcomma : IsComma n) : Adds env x cap n (sequence n) 1 [.left, .right] where
  grew {r s a} hn hr hrun := by
    obtain ⟨m, p, left, right, r₁, r₂, r₃, hm, hp, hleft, hright, hwhole, rfl⟩ := sequence_run hrun
    have hm' := Below.mem_of_part? hm
    have hpart {k : Node} : Bounded env x cap n k (convertPart n k) := inferInstance
    have hfinish : Adds env x cap n (finish n .sequenceExpression
        [.list .expressions (earlierIn m left ++ [right])]) 1 [] := inferInstance
    have h₁ := hpart.grew hn hm' hr hleft
    have h₂ := hpart.grew hn (Below.mem_of_part? hp) h₁.sound hright
    have h₃ := hfinish.grew hn h₂.sound hwhole
    have hall := ((h₁.trans h₂).trans h₃).mono
      (show _ ≤ (if n.index = x then 1 else 0) + cap * cost x n [.left, .right] by
        have hloadLeft := Nat.mul_le_mul_left cap (load_le_cost (x := x) (mem_partsOf_of_part? hm))
        have hloadRight := Nat.mul_le_mul_left cap (load_le_cost (x := x) (mem_partsOf_of_part? hp))
        simp only [cost, Nat.mul_add, Nat.add_zero, Nat.mul_zero] at hloadLeft hloadRight ⊢
        omega)
    by_cases hcontinues : continuesList m left = true
    · rw [if_pos hcontinues]
      obtain ⟨hmc, hnative⟩ :=
        comma_of_continues hcounted.joining hn hcomma hm hleft hcontinues
      have hmNodes := Tree.mem_nodes_trans hn (Tree.mem_nodes_of_mem hm')
      have hbefore := h₂.before.trans h₃.before
      have hleftId := (hbefore.nativeOf? (Registry.lt_size_of_nativeOf? hnative)).trans hnative
      have hwholeId : r₃.nativeOf? a.id = some n.index := by
        obtain ⟨rfl, hid, -⟩ := finish_run hwhole
        rw [Registry.nativeOf?_next, if_pos hid]
      refine (hall.trans (.redirect h₃.sound (fun y hy => ?_) (Option.isSome_of_mem hwholeId)
        fun k hk _ hkn => ⟨n, hn, hcomma, hwholeId, .inr ?_⟩)).mono (Nat.le_refl _)
      · exact Option.some.inj (hleftId.symm.trans hy) ▸
          ⟨m, hmNodes, rfl, .inr ⟨hmc.kind, hmc.operator⟩⟩
      · have hindex := Option.some.inj (hleftId.symm.trans hkn)
        rw [hm, hcounted.countable.parsed.eq_of_index hmNodes hk hindex]
    · rwa [if_neg hcontinues]

lemma binaryExpression_adds (hk : n.kind = .form .binaryExpression) :
    Adds env x cap n (binaryExpression n) 1 [.left, .right] := by
  unfold binaryExpression
  split
  · next k hoperator =>
    refine .ite (fun hc => ?_) fun _ => ?_
    · exact sequence_adds ⟨hk, hoperator.trans (by rw [beq_iff_eq.1 hc])⟩
    · split
      · infer_instance
      · exact .silent inferInstance
  · exact .silent inferInstance

end Commas

end EstreeLint.Estree.Convert
