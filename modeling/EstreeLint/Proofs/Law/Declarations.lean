import EstreeLint.Proofs.Census.Declarations
import EstreeLint.Proofs.Law.Expressions

/-!
The rules for declarations, members and modules under a law.

A declaration that may be exported is drafted first: what is made of it does not hang on its export.
-/

namespace EstreeLint.Estree

namespace Convert

set_option synthInstance.maxSize 1000

variable {env : Env} {L : Law env.file} {Γ : Facts env.file} {n m : Node}
  {t : NodeType} {f : Field} {r : Role}

/-! ### Bodies -/

section Bodies

instance : Gives env L Γ (directiveText? n) :=
  .look fun _ hrun => ⟨((directiveText?_looks n).gives hrun).1, fun _ _ => trivial⟩

variable [Asked env L]

lemma bodyFrom_gives {prologue : Bool} {ms : List Node} (hms : ∀ m ∈ ms, L.inner m) :
    Gives env L Γ (bodyFrom n prologue ms) := by
  induction ms generalizing prologue Γ with
  | nil => exact inferInstanceAs (Gives env L Γ (pure []))
  | cons m ms ih =>
    refine .given (hms m (by simp)) (.bind inferInstance fun converted => ?_)
    extract_lets rest
    have hrest {Δ : Facts env.file} [he : Entails Δ (.good L converted)] (text? : Option String) :
        Gives env L Δ (rest text?) := by
      unfold rest
      extract_lets first
      refine .bind (ih fun m hm => hms m (by simp [hm])) fun others => ?_
      have hfirst : Entails Δ (.good L first) := by
        refine ⟨fun hΔ => ?_⟩
        have hgood := he.of hΔ
        unfold first
        cases text? with
        | none => exact hgood
        | some text =>
          dsimp only
          split
          · next ht =>
            have hedited : isEdited converted.type = true := by simp [isEdited, beq_iff_eq.1 ht]
            exact good_setSlot hgood hedited (by simp)
          · exact hgood
      infer_instance
    clear_value rest
    exact .ite (fun _ => .bind inferInstance fun _ => hrest _) fun _ =>
      .bind inferInstance fun _ => hrest _

instance {prologue : Bool} [h : Entails Γ (.fact (Quiet L n r))] :
    Gives env L Γ (body n r prologue) :=
  .from_fact h fun hquiet => bodyFrom_gives hquiet

end Bodies

/-! ### Functions and signatures -/

section Functions

variable [Asked env L]

instance [Entails Γ (.fact (Listed L n))] [Entails Γ (.fact (Quiet L n .typeParameter))]
    [Entails Γ (.fact (Quiet L n .parameter))] [Entails Γ (.fact (Quiet L n .declaredType))] :
    Gives env L Γ (signature n) := by
  refine .bind inferInstance fun types => .bind inferInstance fun params =>
    .bind inferInstance fun type => .look fun hΓ hrun => ?_
  cases hrun
  exact ⟨rfl, hΓ.2.2.1, hΓ.2.1, hΓ.1⟩

section

variable {s : Signature} {id body : Option EsNode}

omit [Asked env L]

instance [h : Entails Γ (.good L s)] : Entails Γ (.good L s.typeParameters) :=
  ⟨fun hΓ => (h.of hΓ).1⟩

instance [h : Entails Γ (.good L s)] : Entails Γ (.good L s.params) := ⟨fun hΓ => (h.of hΓ).2.1⟩

instance [h : Entails Γ (.good L s)] : Entails Γ (.good L s.returnType) :=
  ⟨fun hΓ => (h.of hΓ).2.2⟩

instance [Entails Γ (.good L s)] : Entails Γ (.parts L (signatureParts s)) := by
  unfold signatureParts
  infer_instance

instance [Entails Γ (.good L s)] [Entails Γ (.good L id)] [Entails Γ (.good L body)]
    {c d g : Bool} :
    Entails Γ (.parts L (functionParts (.flag .isAsync c) d g id body s)) := by
  unfold functionParts
  infer_instance

end

variable [Entails Γ (.fact (Plain L n))]

instance : Gives env L Γ (functionExpression n) := by
  unfold functionExpression isAsync
  infer_instance

instance : Gives env L Γ (arrowFunction n) := by
  unfold arrowFunction
  infer_instance

lemma methodValue_gives {c g : Bool} (h : L.first ≤ openingOf n .parameter) :
    Gives env L Γ (methodValue n (.flag .isAsync c) g) := by
  refine .given (q := After L (openingOf n .parameter)) h ?_
  refine .bind inferInstance fun s => .bind inferInstance fun body => ?_
  extract_lets type
  have htype : IsTrue (isPlain type) := ⟨by unfold type; split <;> rfl⟩
  infer_instance

instance : Gives env L Γ (propertySignature n) := by unfold propertySignature; infer_instance

instance : Gives env L Γ (methodSignature n) := by unfold methodSignature; infer_instance

instance : Gives env L Γ (indexSignature n) := by unfold indexSignature; infer_instance

instance [IsTrue (isPlain t)] : Gives env L Γ (callSignature n t) := by
  unfold callSignature
  infer_instance

instance : Gives env L Γ (functionType n) := by unfold functionType; infer_instance

end Functions

/-! ### Classes -/

section Classes

variable [Asked env L]

instance [Entails Γ (.fact (L.inner n))] : Gives env L Γ (superClass n) := by
  unfold superClass
  refine .from_fact (q := Quiet L n .element) inferInstance fun hquiet => ?_
  split
  · infer_instance
  · next first h =>
    refine .given (hquiet first (List.mem_of_mem_head? h)) ?_
    infer_instance

lemma heritageTypes_gives {clause : Node} (h : L.inner clause) (hn : n ∈ env.file.root.nodes)
    (hm : clause ∈ n.partsOf .heritage) [IsTrue (isPlain t)] :
    Gives env L Γ (heritageTypes clause t) := by
  refine .mapM _ fun e he => .given (L.inner_part h rfl he) ?_
  exact .given (q := Inlined env.file e) (.heritage hn hm he) inferInstance

variable {h : Heritage}

lemma heritageStep_gives {clause : Node} (hinner : L.inner clause) (hn : n ∈ env.file.root.nodes)
    (hm : clause ∈ n.partsOf .heritage) :
    Gives env L ((Facts.good L h).both Γ) (heritageStep h clause) := by
  refine .given hinner (.ite (fun _ => .ite (fun _ => inferInstance) fun _ => ?_) fun _ =>
    .ite (fun _ => ?_) fun _ => inferInstance)
  · refine .bind inferInstance fun x => .look fun hΓ hrun => ?_
    cases hrun
    exact ⟨rfl, hΓ.1.1, hΓ.1.2, hΓ.2.2.1.2.2⟩
  · refine .bind (heritageTypes_gives hinner hn hm) fun types => .look fun hΓ hrun => ?_
    cases hrun
    exact ⟨rfl, hΓ.2.2.1.1, hΓ.2.2.1.2.1, hΓ.1⟩

instance [he : Entails Γ (.good L h)] : Entails Γ (.good L h.superClass) :=
  ⟨fun hΓ => (he.of hΓ).1⟩

instance [he : Entails Γ (.good L h)] : Entails Γ (.good L h.superTypeArguments) :=
  ⟨fun hΓ => (he.of hΓ).2.1⟩

instance [he : Entails Γ (.good L h)] : Entails Γ (.good L h.implements) :=
  ⟨fun hΓ => (he.of hΓ).2.2⟩

instance [Entails Γ (.fact (After L (openingOf n .member)))] {members : List EsNode}
    [Entails Γ (.good L members)] [IsTrue (isPlain t)] :
    Gives env L Γ (memberBody n t f members) := by
  unfold memberBody
  infer_instance

end Classes

/-! ### Drafts -/

end Convert

/-- The types of node that a form of declaration is converted to. -/
@[reducible] def isDeclaredAs : Form → NodeType → Bool
  | .variableStatement, .variableDeclaration
  | .functionDeclaration, .functionDeclaration | .functionDeclaration, .tsDeclareFunction
  | .classDeclaration, .classDeclaration | .classExpression, .classExpression
  | .interfaceDeclaration, .tsInterfaceDeclaration
  | .typeAliasDeclaration, .tsTypeAliasDeclaration
  | .enumDeclaration, .tsEnumDeclaration | .moduleDeclaration, .tsModuleDeclaration
  | .importEqualsDeclaration, .tsImportEqualsDeclaration => true
  | _, _ => false

/-- What is made of a declaration, before it is numbered and before any export is put around it. -/
structure Draft (f : Form) where
  type : NodeType
  parts : List Part

namespace Convert

/-- A class, before it is numbered. -/
def classDraft (f : Form) (n : Node) (t : NodeType) : Convert (Draft f) := do
  let decorators ← decorators n
  let id ← child? n .name
  let typeParameters ← typeParameters? n
  let heritage ← (n.partsOf .heritage).foldlM heritageStep {}
  let kept := (n.partsOf .member).filter (!·.isForm .semicolonClassElement)
  let members ← kept.mapM (convertPart n ·)
  let body ← memberBody n .classBody .body members
  return ⟨t, [.flag .isAbstract (hasWord n .abstractKw), .one .body body,
    .flag .isDeclared (hasWord n .declareKw), .list .decorators decorators, .one? .id id,
    .list .implements heritage.implements, .one? .superClass heritage.superClass,
    .extra .superTypeArguments heritage.superTypeArguments,
    .extra .typeParameters typeParameters]⟩

/-- A namespace, before it is numbered. -/
def moduleDraft (n : Node) : Convert (Draft .moduleDeclaration) := do
  let name ← require n .name
  let inner :=
    if n.flags.globalAugmentation || name.isToken .stringLiteral then []
    else innerDeclarations n.height n
  let id ← qualify (← child n .name) inner
  let body ← child? (inner.getLastD n) .body
  let kind :=
    if n.flags.globalAugmentation then "global"
    else if name.isToken .stringLiteral || !n.flags.namespaceWord then "module"
    else "namespace"
  return ⟨.tsModuleDeclaration, [.one? .body body,
    .flag .isDeclared ((n :: inner).any (hasWord · .declareKw)),
    .flag .isGlobal n.flags.globalAugmentation, .one .id id, .text .kind kind]⟩

/-- The declarations that may be exported. -/
def draft? (n : Node) : (f : Form) → Option (Convert (Draft f))
  | .variableStatement => some do
    let list ← require n .declarationList
    let declarations ← children list .element
    return ⟨.variableDeclaration, declarationParts list (hasWord n .declareKw) declarations⟩
  | .functionDeclaration => some do
    let id ← child? n .name
    let s ← signature n
    let body ← child? n .body
    let declared := hasWord n .declareKw
    return ⟨if declared || body.isNone then .tsDeclareFunction else .functionDeclaration,
      functionParts (isAsync n) declared (isGenerator n) id body s⟩
  | .classDeclaration => some (classDraft .classDeclaration n .classDeclaration)
  | .interfaceDeclaration => some do
    let id ← child n .name
    let typeParameters ← typeParameters? n
    let extended ← (clausesOf n .extendsKw).mapM (heritageTypes · .tsInterfaceHeritage)
    let members ← children n .member
    let body ← memberBody n .tsInterfaceBody .body members
    return ⟨.tsInterfaceDeclaration, [.one .body body,
      .flag .isDeclared (hasWord n .declareKw), .list .extended extended.flatten,
      .one .id id, .extra .typeParameters typeParameters]⟩
  | .typeAliasDeclaration => some do
    let id ← child n .name
    let typeParameters ← typeParameters? n
    let type ← child n .type
    return ⟨.tsTypeAliasDeclaration, [.flag .isDeclared (hasWord n .declareKw), .one .id id,
      .one .type type, .extra .typeParameters typeParameters]⟩
  | .enumDeclaration => some do
    let id ← child n .name
    let members ← children n .member
    let body ← memberBody n .tsEnumBody .members members
    return ⟨.tsEnumDeclaration, [.one .body body, .flag .isConst (hasWord n .constKw),
      .flag .isDeclared (hasWord n .declareKw), .one .id id]⟩
  | .moduleDeclaration => some (moduleDraft n)
  | .importEqualsDeclaration => some do
    let id ← child n .name
    let reference ← child n .moduleReference
    return ⟨.tsImportEqualsDeclaration, [.one .id id, .text .importKind (kindText n.isFlagged),
      .one .moduleReference reference]⟩
  | _ => none

/-- A draft is numbered, and an export is put around it where the modifiers ask for one. -/
def declared {f : Form} (n : Node) (d : Draft f) : Convert EsNode := do
  wrapExport n (← finish n d.type d.parts)

lemma declared_eq (n : Node) :
    declared n = fun d : Draft f => finish n d.type d.parts >>= wrapExport n := rfl

lemma classLike_eq : classLike n t = classDraft f n t >>= fun d => finish n d.type d.parts := by
  simp [classLike, classDraft]

/-- **A declaration is drafted, and then numbered and exported.** -/
theorem ruleFor_eq_draft {p : Convert (Draft f)} (h : draft? n f = some p) :
    ruleFor n f = p >>= declared n := by
  cases f <;> cases h <;>
    simp [ruleFor, expressionForm, statementForm, declarationForm, variableStatement,
      functionDeclaration, classDeclaration, classLike_eq (f := .classDeclaration),
      interfaceDeclaration, typeAlias, enumDeclaration, moduleDeclaration, moduleDraft,
      importEquals, declared_eq]

end Convert

/-! ### Drafts under a law -/

instance {f : Form} : Carrier (Draft f) where
  Good L r d := isDeclaredAs f d.type = true ∧ PartsHold (L.Good r) d.parts
  later hrs h := ⟨h.1, fun c hc => (h.2 c hc).later hrs⟩

/-- What a draft reads: its name is only converted, and of its modifiers only the decorators are. -/
structure Drawn {file : SourceFile} (L : Law file) (n : Node) : Prop where
  mem : n ∈ file.root.nodes
  name : ∀ m ∈ n.partsOf .name, L.asks false m
  part : ∀ r, r ∉ [.name, .modifier, .declarationList] → Quiet L n r
  decorators : ∀ m ∈ n.partsOf .modifier, m.isForm .decorator = true → L.inner m
  elements : ∀ l ∈ n.partsOf .declarationList, Quiet L l .element
  nested : n.kind = .form .moduleDeclaration →
    ∀ m ∈ Convert.innerDeclarations n.height n, Quiet L m .name ∧ Quiet L m .body
  list : Listed L n
  opening : ∀ r, keepsList n.kind r = true → L.first ≤ Convert.openingOf n r

namespace Convert

variable {env : Env} {L : Law env.file} {Γ : Facts env.file} {n m : Node}
  {t : NodeType} {f : Form} {r : Role}

/-- Where the body of a namespace is read as any other part, so are the bodies behind the dots. -/
lemma nested_of_closed {file : SourceFile} {L : Law file}
    (hclosed : ∀ n m, L.inner n → m ∈ n.partsOf .body → L.inner m)
    (h : Quiet L n .body) (depth : Nat) :
    ∀ m ∈ innerDeclarations depth n, Quiet L m .name ∧ Quiet L m .body := by
  induction depth generalizing n with
  | zero => exact nofun
  | succ depth ih =>
    unfold innerDeclarations
    split
    · next inner hinner =>
      have hmem := h inner (mem_partsOf_of_part? hinner)
      have hbody : Quiet L inner .body := fun k hk => hclosed inner k hmem hk
      split
      · exact List.forall_mem_cons.2 ⟨⟨fun k hk => L.inner_part hmem rfl hk, hbody⟩, ih hbody⟩
      · exact nofun
    · exact nofun

lemma drawn_of_plain (h : Plain L n) (hlist : ∀ l ∈ n.partsOf .declarationList, L.inner l)
    (hnested : n.kind = .form .moduleDeclaration →
      ∀ m ∈ innerDeclarations n.height n, Quiet L m .name ∧ Quiet L m .body) : Drawn L n where
  mem := h.mem
  name m hm := L.inner_asks (h.part m (Below.mem_of_partsOf hm))
  part _ _ m hm := h.part m (Below.mem_of_partsOf hm)
  decorators m hm _ := h.part m (Below.mem_of_partsOf hm)
  elements l hl _ hm := L.inner_part (hlist l hl) rfl hm
  nested := hnested
  list := h.list
  opening := h.opening

/-- The roles of parts that a draft reads as any rule does. -/
@[reducible] def isDrawn : Role → Bool
  | .name | .modifier | .declarationList => false
  | _ => true

instance [h : Entails Γ (.fact (Drawn L n))] [hr : IsTrue (isDrawn r)] :
    Entails Γ (.fact (Quiet L n r)) := by
  refine ⟨fun hΓ => (h.of hΓ).part r ?_⟩
  rintro hmem
  have htrue := hr.eq
  simp only [List.mem_cons, List.not_mem_nil, or_false] at hmem
  rcases hmem with rfl | rfl | rfl <;> cases htrue

instance [h : Entails Γ (.fact (Drawn L n))] : Entails Γ (.fact (Listed L n)) :=
  ⟨fun hΓ => (h.of hΓ).list⟩

instance {ps : List Part} [ht : IsTrue (isDeclaredAs f t)] [h : Entails Γ (.parts L ps)] :
    Entails Γ (.good L (⟨t, ps⟩ : Draft f)) := ⟨fun hΓ => ⟨ht.eq, h.of hΓ⟩⟩

variable [Asked env L]

lemma decorators_gives (h : ∀ m ∈ n.partsOf .modifier, m.isForm .decorator = true → L.inner m) :
    Gives env L Γ (decorators n) :=
  .mapM _ fun m hm => .given (h m (List.mem_filter.1 hm).1 (List.mem_filter.1 hm).2) inferInstance

variable [Entails Γ (.fact (Drawn L n))]

lemma classDraft_gives (hopening : L.first ≤ openingOf n .member) [IsTrue (isDeclaredAs f t)] :
    Gives env L Γ (classDraft f n t) := by
  refine .from_fact (q := Drawn L n) inferInstance fun hdrawn => ?_
  refine .given (q := After L (openingOf n .member)) hopening ?_
  refine .bind (decorators_gives hdrawn.decorators) fun decorators => ?_
  refine .bind (child?_gives hdrawn.name) fun id => .bind inferInstance fun types => ?_
  refine .bind ?_ fun heritage => ?_
  · refine (Gives.foldlM (Γ := .none) _ (fun h clause hm => ?_) _).known fun r _ => ?_
    · exact heritageStep_gives (hdrawn.part .heritage (by decide) clause hm) hdrawn.mem hm
    · exact ⟨⟨nofun, nofun, by simp [Good]⟩, trivial⟩
  · dsimp only
    exact .bind inferInstance fun members => .bind inferInstance fun body => inferInstance

/-- A dotted name is put together from the names of the declarations in one another. -/
lemma qualify_gives {id : EsNode} {ms : List Node} (hms : ∀ m ∈ ms, Quiet L m .name) :
    Gives env L ((Facts.good L id).both Γ) (qualify id ms) := by
  induction ms generalizing id Γ with
  | nil => exact inferInstanceAs (Gives env L _ (pure id))
  | cons m ms ih =>
    refine .given (hms m (by simp)) (.bind inferInstance fun right => ?_)
    refine .bind inferInstance fun joined => ?_
    exact ih fun m hm => hms m (by simp [hm])

lemma moduleDraft_gives (hk : n.kind = .form .moduleDeclaration) :
    Gives env L Γ (moduleDraft n) := by
  refine .from_fact (q := Drawn L n) inferInstance fun hdrawn => requireOf fun name hname => ?_
  extract_lets inner kind
  have hinner : ∀ m ∈ inner, Quiet L m .name ∧ Quiet L m .body := by
    unfold inner
    split
    · exact nofun
    · exact hdrawn.nested hk
  have hlast : Quiet L (inner.getLastD n) .body := by
    rcases List.mem_cons.1 (List.getLastD_mem_cons (l := inner) (a := n)) with h | h
    · rw [h]
      exact hdrawn.part .body (by decide)
    · exact (hinner _ h).2
  refine .bind (child_gives hdrawn.name) fun id =>
    .bind (qualify_gives fun m hm => (hinner m hm).1) fun id => ?_
  exact .given hlast (.bind inferInstance fun body => inferInstance)

lemma draft_gives {p : Convert (Draft f)} (hk : n.kind = .form f) (hp : draft? n f = some p) :
    Gives env L Γ p := by
  refine .from_fact (q := Drawn L n) inferInstance fun hdrawn => ?_
  have hopening (h : keepsList (.form f) .member = true) : After L (openingOf n .member) :=
    hdrawn.opening .member (hk ▸ h)
  cases f <;> cases hp
  case variableStatement =>
    refine requireOf fun list hlist => .given (hdrawn.elements list (mem_partsOf_of_part? hlist)) ?_
    refine .bind inferInstance fun declarations => ?_
    unfold declarationParts
    infer_instance
  case functionDeclaration =>
    refine .bind (child?_gives hdrawn.name) fun id => .bind inferInstance fun s => ?_
    refine .bind inferInstance fun body => ?_
    extract_lets declared
    unfold isAsync
    split <;> infer_instance
  case classDeclaration => exact classDraft_gives (hopening rfl)
  case interfaceDeclaration =>
    refine .given (hopening rfl) (.bind (child_gives hdrawn.name) fun id => ?_)
    refine .bind inferInstance fun types =>
      .bind (.mapM _ fun clause hclause => ?_) fun extended => ?_
    · have hm := (List.mem_filter.1 hclause).1
      exact heritageTypes_gives (hdrawn.part .heritage (by decide) clause hm) hdrawn.mem hm
    · exact .bind inferInstance fun members => .bind inferInstance fun body => inferInstance
  case typeAliasDeclaration =>
    exact .bind (child_gives hdrawn.name) fun id => inferInstance
  case enumDeclaration =>
    refine .given (hopening rfl) (.bind (child_gives hdrawn.name) fun id => inferInstance)
  case moduleDeclaration => exact moduleDraft_gives hk
  case importEqualsDeclaration =>
    exact .bind (child_gives hdrawn.name) fun id => inferInstance

end Convert

/-! ### Members -/

namespace Convert

variable {env : Env} {L : Law env.file} {Γ : Facts env.file} {n m : Node}
  {t : NodeType} {f : Field} {r : Role} [Asked env L] [Entails Γ (.fact (Plain L n))]

omit [Asked env L] [Entails Γ (.fact (Plain L n))] in
lemma isPlain_of_declaredAs {f : Form} (h : isDeclaredAs f t = true) : isPlain t = true := by
  unfold isDeclaredAs at h
  split at h
  all_goals first
    | rfl
    | cases h

omit [Asked env L] [Entails Γ (.fact (Plain L n))] in
lemma finish_draft_gives {f : Form} {d : Draft f}
    [hstart : Entails Γ (.fact (After L (env.file.startOf n)))]
    (hmakes : ∀ t, isDeclaredAs f t = true → Makes L (some n) t) :
    Gives env L ((Facts.good L d).both Γ) (finish n d.type d.parts) where
  moves hΓ hkept hrun := by
    have hplain := isPlain_of_declaredAs hΓ.1.1
    have hafter : L.first ≤ env.file.startOf n := hstart.of hΓ.2
    refine (make_moves hafter hΓ.1.2 (hmakes _ hΓ.1.1) ?_ ?_ hkept hrun).1
    · intro ht
      rw [ht] at hplain
      cases hplain
    · intro ht
      rw [ht] at hplain
      cases hplain

/-- An expression that is a class. -/
lemma classExpression_gives (hk : n.kind = .form .classExpression) :
    Gives env L Γ (classLike n .classExpression) := by
  refine .from_fact (q := Plain L n) inferInstance fun hplain => ?_
  have hdrawn := drawn_of_plain hplain (fun l hl => hplain.part l (Below.mem_of_partsOf hl))
    fun hk' => by simp [hk] at hk'
  refine .given hdrawn ?_
  rw [classLike_eq (f := .classExpression)]
  refine .bind (classDraft_gives (hplain.opening .member (hk ▸ rfl))) fun d => ?_
  exact finish_draft_gives fun t ht => hplain.makes t (isPlain_of_declaredAs ht)

instance (isAccessor isAbstract : Bool) : IsTrue (isPlain (propertyType isAccessor isAbstract)) :=
  ⟨by cases isAccessor <;> cases isAbstract <;> rfl⟩

instance : Gives env L Γ (propertyDeclaration n) := by
  refine .bind inferInstance fun decorators => .bind inferInstance fun key => ?_
  refine .bind inferInstance fun type => ?_
  extract_lets isAbstract mark rest
  have hrest {Δ : Facts env.file} [Entails Δ (.fact (Plain L n))] [Entails Δ (.good L decorators)]
      [Entails Δ (.good L key)] [Entails Δ (.good L type)] (value : Option EsNode) :
      Gives env L ((Facts.good L value).both Δ) (rest value) := by
    unfold rest
    infer_instance
  clear_value rest
  exact .ite (fun _ => .bind inferInstance hrest) fun _ => .bind inferInstance hrest

lemma isPlain_methodType (n : Node) : isPlain (methodType n) = true := by
  unfold methodType
  split <;> rfl

instance (n : Node) : IsTrue (isPlain (methodType n)) := ⟨isPlain_methodType n⟩

lemma objectMethod_gives (h : L.first ≤ openingOf n .parameter) :
    Gives env L Γ (objectMethod n) := by
  refine .bind inferInstance fun key => .bind (methodValue_gives h) fun value => ?_
  infer_instance

lemma classMethod_gives (h : L.first ≤ openingOf n .parameter) :
    Gives env L Γ (classMethod n) := by
  refine .bind inferInstance fun decorators => .bind inferInstance fun key => ?_
  exact .bind (methodValue_gives h) fun value => inferInstance

lemma method_gives (h : L.first ≤ openingOf n .parameter) : Gives env L Γ (method n) := by
  refine .ofRead (.ite (fun _ => inferInstance) fun _ => ?_)
  exact .ite (fun _ => objectMethod_gives h) fun _ => classMethod_gives h

lemma constructorMember_gives (h : L.first ≤ openingOf n .parameter) :
    Gives env L Γ (constructorMember n) := by
  refine .from_fact (q := Plain L n) inferInstance fun hplain => ?_
  unfold constructorMember
  extract_lets keyPos isStatic
  have hkey : After L keyPos := by
    unfold keyPos
    cases hmax : ((n.partsOf .modifier).map (·.stop)).max? with
    | none => exact hplain.pos
    | some p =>
      obtain ⟨m, hm, rfl⟩ := List.mem_map.1 (List.max?_mem hmax)
      exact (L.inner_spotted (hplain.part m (Below.mem_of_partsOf hm))).stop
  refine .given hkey (.bind inferInstance fun keyToken => ?_)
  refine .bind (methodValue_gives h) fun value => ?_
  extract_lets rest
  have hrest {Δ : Facts env.file} [Entails Δ (.fact (Plain L n))] [Entails Δ (.good L value)]
      (key : EsNode) : Gives env L ((Facts.good L key).both Δ) (rest key) := by
    unfold rest
    infer_instance
  clear_value rest
  refine .ite (fun _ => ?_) fun _ => .bind inferInstance hrest
  exact .bind inferInstance fun raw => .bind inferInstance hrest

instance : Gives env L Γ (staticBlock n) := by unfold staticBlock; infer_instance

instance : Gives env L Γ (enumMember n) := by unfold enumMember; infer_instance

/-! ### Modules -/

instance : Gives env L Γ (moduleBlock n) := by unfold moduleBlock; infer_instance

omit [Entails Γ (.fact (Plain L n))] in
lemma importSpecifiers_gives {clause : Node} (h : L.inner clause) :
    Gives env L Γ (importSpecifiers n clause) := by
  refine .given h ?_
  unfold importSpecifiers
  extract_lets rest
  have hrest {Δ : Facts env.file} [Entails Δ (.fact (L.inner clause))] (default? : List EsNode) :
      Gives env L ((Facts.good L default?).both Δ) (rest default?) := by
    refine .from_fact (q := Quiet L clause .namedBindings) inferInstance fun hquiet => ?_
    unfold rest
    split
    · infer_instance
    · next bindings hb => exact .given (hquiet bindings (mem_partsOf_of_part? hb)) inferInstance
  clear_value rest
  exact .ite (fun _ => .bind inferInstance fun e => .bind inferInstance hrest) fun _ =>
    .bind inferInstance hrest

instance : Gives env L Γ (moduleAttributes n) := by
  refine .from_fact (q := Plain L n) inferInstance fun hplain => ?_
  unfold moduleAttributes
  split
  · next attributes h => exact .given (hplain.part attributes (Below.mem_of_part? h)) inferInstance
  · infer_instance

instance : Gives env L Γ (importDeclaration n) := by
  refine .from_fact (q := Plain L n) inferInstance fun hplain => ?_
  unfold importDeclaration
  extract_lets clause? rest
  have hrest {Δ : Facts env.file} [Entails Δ (.fact (Plain L n))] (specifiers : List EsNode) :
      Gives env L ((Facts.good L specifiers).both Δ) (rest specifiers) := by
    unfold rest
    infer_instance
  clear_value rest
  cases hclause : clause? with
  | some clause =>
    have hinner := hplain.part clause (Below.mem_of_part? hclause)
    exact .bind (importSpecifiers_gives hinner) hrest
  | none => exact .bind inferInstance hrest

instance : Gives env L Γ (importDefault n) := by unfold importDefault; infer_instance

instance : Gives env L Γ (namespaceImport n) := by unfold namespaceImport; infer_instance

instance : Gives env L Γ (givenName n) := by
  unfold givenName
  split <;> infer_instance

instance : Gives env L Γ (importSpecifier n) := by unfold importSpecifier; infer_instance

instance : Gives env L Γ (importAttribute n) := by unfold importAttribute; infer_instance

lemma attributesObject_gives (hk : n.kind = .form .importAttributes) :
    Gives env L Γ (attributesObject n) := by
  refine .from_fact (q := Plain L n) inferInstance fun hplain => ?_
  refine .bind (.mapM _ fun element hm => ?_) fun properties => inferInstance
  refine .given (hplain.part element (Below.mem_of_partsOf hm)) ?_
  exact .given (q := Inlined env.file element) (.entry hplain.mem hk hm) inferInstance

instance : Gives env L Γ (exportSpecifier n) := by unfold exportSpecifier; infer_instance

instance : Gives env L Γ (exportAssignment n) := by unfold exportAssignment; infer_instance

instance : Gives env L Γ (namespaceExport n) := by unfold namespaceExport; infer_instance

lemma namedExports_gives {clause : Node} (h : L.inner clause) :
    Gives env L Γ (namedExports n clause) := by
  refine .given h (.bind inferInstance fun specifiers => .bind inferInstance fun source => ?_)
  infer_instance

instance : Gives env L Γ (exportAll n) := by unfold exportAll; infer_instance

instance : Gives env L Γ (exportDeclaration n) := by
  refine .from_fact (q := Plain L n) inferInstance fun hplain => ?_
  unfold exportDeclaration
  split
  · next clause h =>
    exact .ite (fun _ => namedExports_gives (hplain.part clause (Below.mem_of_part? h))) fun _ =>
      inferInstance
  · infer_instance

end Convert

end EstreeLint.Estree
