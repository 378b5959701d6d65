import EstreeLint.Proofs.Law.Steps

/-!
The rules for tokens and types under a law.

Where a rule only converts parts and puts them into a new node, its steps say all there is to show.
-/

namespace EstreeLint.Estree.Convert

-- a rule with many parts has as many steps, and each knows of all before it
set_option synthInstance.maxSize 1000

variable {env : Env} {L : Law env.file} {Γ : Facts env.file} {n m : Node}
  {t : NodeType} {f : Field} {r : Role}

/-! ### Parts that come in groups -/

section Groups

variable {ps : List Part} {e e' : EsNode} {s : Signature}

instance {raw : String} {v : Value} : Entails Γ (.parts L (literalParts raw v)) := by
  unfold literalParts
  infer_instance

instance {name : String} : Entails Γ (.parts L (identifierParts name)) := by
  unfold identifierParts
  infer_instance

instance [Entails Γ (.good L e)] [Entails Γ (.good L e')] {kind : String}
    {c isMethod optional shorthand : Bool} :
    Entails Γ (.parts L
      (propertyParts (.flag .isComputed c) e kind isMethod optional shorthand e')) := by
  unfold propertyParts
  infer_instance

instance [Entails Γ (.good L e)] [Entails Γ (.good L e')] {kind : String}
    {isMethod optional shorthand : Bool} :
    Entails Γ (.parts L
      (propertyParts (isComputed n r) e kind isMethod optional shorthand e')) := by
  unfold propertyParts
  infer_instance

instance [Entails Γ (.good L e)] [Entails Γ (.good L e')] :
    Entails Γ (.parts L (assignmentParts e e')) := by
  unfold assignmentParts
  infer_instance

instance [Entails Γ (.good L e)] : Entails Γ (.parts L (restParts e)) := by
  unfold restParts
  infer_instance

instance [Entails Γ (.good L e)] {operator : String} {before : Bool} :
    Entails Γ (.parts L (unaryParts e operator before)) := by
  unfold unaryParts
  infer_instance

instance [Entails Γ (.good L e)] [Entails Γ (.good L e')] {operator : String} :
    Entails Γ (.parts L (operationParts e operator e')) := by
  unfold operationParts
  infer_instance

end Groups

/-! ### Tokens -/

section Leaf

variable [Entails Γ (.fact (Plain L n))] {k : TokenKind}

instance : Gives env L Γ (literal n k) := by
  unfold literal
  refine .bind inferInstance fun _ => .bind inferInstance fun raw => ?_
  split <;> infer_instance

instance : Gives env L Γ (templateElement n k) := by unfold templateElement; infer_instance

instance : Gives env L Γ (identifier n) := .ofRead inferInstance

instance : Gives env L Γ (jsxText n) := by
  unfold jsxText
  dsimp only
  infer_instance

lemma isPlain_of_wordType (h : wordType? k = some t) : isPlain t = true := by
  unfold wordType? at h
  split at h <;> cases h <;> rfl

instance : Gives env L Γ (token n k) := by
  unfold token
  split
  case h_16 =>
    split
    · next h =>
      have hplain : IsTrue (isPlain _) := ⟨isPlain_of_wordType h⟩
      infer_instance
    · infer_instance
  all_goals infer_instance

end Leaf

/-! ### Types -/

section Types

variable [Asked env L]

/-- The mark before a declared type stands before the type, which is read behind it. -/
instance [h : Entails Γ (.fact (Quiet L n .declaredType))] :
    Gives env L Γ (declaredType? n) := by
  unfold declaredType?
  refine .from_fact h fun hquiet => .mapM? _ fun type htype => ?_
  have hinner := hquiet type (mem_partsOf_of_part? htype)
  extract_lets width
  have hmark : After L (type.pos - width) := by
    have hpos := (L.inner_spotted hinner).pos
    have hwidth : width ≤ 2 := by
      unfold width
      split <;> omega
    unfold After
    omega
  exact .given hinner (.bind inferInstance fun inner => .given hmark inferInstance)

instance {list : NodeList} [h : Entails Γ (.fact (After L (list.pos - 1)))] :
    Gives env L Γ (angleRange list) :=
  .look fun hΓ hrun => by
    cases hrun
    exact ⟨rfl, h.of hΓ⟩

lemma angleList?_gives [hl : Entails Γ (.fact (Listed L n))] [Entails Γ (.fact (Quiet L n r))]
    [IsTrue (isPlain t)] (hr : r ≠ .modifier) : Gives env L Γ (angleList? n r t) := by
  unfold angleList?
  refine .from_fact hl fun hlisted => .mapM? _ fun list hlist => ?_
  have hopening : After L (list.pos - 1) := hlisted r list hr hlist
  exact .given hopening inferInstance

instance [Entails Γ (.fact (Listed L n))] [Entails Γ (.fact (Quiet L n .typeParameter))] :
    Gives env L Γ (typeParameters? n) := angleList?_gives (by decide)

instance [Entails Γ (.fact (Listed L n))] [Entails Γ (.fact (Quiet L n .typeArgument))] :
    Gives env L Γ (typeArguments? n) := angleList?_gives (by decide)

section

variable [Entails Γ (.fact (Plain L n))]

instance [IsTrue (isPlain t)] : Gives env L Γ (wrappedType n t f) := by
  unfold wrappedType
  infer_instance

instance [IsTrue (isPlain t)] : Gives env L Γ (listedTypes n t f) := by
  unfold listedTypes
  infer_instance

instance : Gives env L Γ (typeParameter n) := by unfold typeParameter; infer_instance

instance : Gives env L Γ (typeReference n) := by unfold typeReference; infer_instance

instance : Gives env L Γ (typeQuery n) := by unfold typeQuery; infer_instance

instance : Gives env L Γ (typePredicate n) := by
  unfold typePredicate
  refine .bind inferInstance fun name => .bind inferInstance fun o => ?_
  have htype : Gives env L ((Facts.good L o).both ((Facts.good L name).both Γ))
      (o.mapM fun inner => make none inner.range .tsTypeMark [.one .type inner]) := by
    cases o with
    | none => exact .mapM? _ nofun
    | some inner =>
      have hmake : Gives env L ((Facts.good L inner).both .none)
          (make none inner.range .tsTypeMark [.one .type inner]) := inferInstance
      refine .mapM? _ fun e he => ?_
      obtain rfl := Option.some.inj he
      exact hmake.known fun _ h => ⟨h.1 inner rfl, trivial⟩
  exact .bind htype fun type => inferInstance

instance : Gives env L Γ (qualifiedName n) := by unfold qualifiedName; infer_instance

instance : Gives env L Γ (conditionalType n) := by unfold conditionalType; infer_instance

instance : Gives env L Γ (typeOperator n) := by
  unfold typeOperator
  split <;> infer_instance

instance : Gives env L Γ (indexedAccessType n) := by unfold indexedAccessType; infer_instance

instance : Gives env L Γ (mappedType n) := by unfold mappedType; infer_instance

instance : Gives env L Γ (namedTupleMember n) := by
  refine .bind inferInstance fun label => .bind inferInstance fun type =>
    finish_bind fun member ht => .ite (fun _ => inferInstance) fun _ => ?_
  exact .bind (restart_gives (by rw [ht]; rfl)) fun _ => inferInstance

instance : Gives env L Γ (templateParts n) := by unfold templateParts; infer_instance

instance : Gives env L Γ (templateLiteralType n) := by unfold templateLiteralType; infer_instance

end

/-- The object with the attributes of an import. -/
lemma importOptions_gives {argument attributes : Node} (h : L.inner attributes)
    (hstop : After L argument.stop) : Gives env L Γ (importOptions n argument attributes) := by
  refine .given hstop (.given h ?_)
  unfold importOptions
  refine .bind inferInstance fun comma => .bind inferInstance fun opening =>
    .bind inferInstance fun word => .bind inferInstance fun after => ?_
  exact .ite (fun _ => .bind inferInstance fun closing => inferInstance) fun _ => inferInstance

section

variable [Entails Γ (.fact (Plain L n))]

instance : Gives env L Γ (importType n) := by
  unfold importType
  refine .bind inferInstance fun whole => ?_
  extract_lets jp
  have hrest (r : Span) :
      Gives env L ((Facts.good L r).both ((Facts.good L whole).both Γ)) (jp r) := by
    refine .from_fact (q := Quiet L n .argument) inferInstance fun hquiet => ?_
    refine requireOf fun argument harg => ?_
    have hinner := hquiet argument (mem_partsOf_of_part? harg)
    refine .given hinner (.bind inferInstance fun e => .bind ?_ fun options => inferInstance)
    refine .from_fact (q := Quiet L n .attributes) inferInstance fun hattributes => ?_
    refine .mapM? _ fun attributes hm => importOptions_gives ?_ ?_
    · exact hattributes attributes (mem_partsOf_of_part? hm)
    · exact (L.inner_spotted hinner).stop
  refine .ite (fun _ => ?_) fun _ => ?_
  · refine .bind inferInstance fun ⟨_, typeOf⟩ => .bind inferInstance fun ⟨_, import_⟩ => ?_
    dsimp only
    refine .bind inferInstance fun r => (hrest r).known fun _ hΓ => ⟨hΓ.1, hΓ.2.2.2⟩
  · exact .bind inferInstance fun r => hrest r |>.known fun _ hΓ => ⟨hΓ.1, hΓ.2⟩

/-- The word `null` is read where it stands. -/
instance : Gives env L Γ (literalType n) := by
  unfold literalType
  refine .from_fact (q := Quiet L n .type) inferInstance fun hquiet => ?_
  refine requireOf fun inner hinner => .ite (fun hnull => ?_) fun _ => inferInstance
  have hk : inner.kind = .token .nullKw := by simpa [Tree.isToken] using hnull
  refine .given (hquiet inner (mem_partsOf_of_part? hinner)) ?_
  exact .given (q := Inlined env.file inner) (.token hk) inferInstance

end

end Types

end EstreeLint.Estree.Convert
