import EstreeLint.Proofs.Estree.Expressions

/-!
The rules for declarations, modules and statements follow their needs.
-/

namespace EstreeLint.Estree.Convert

variable {env : Env} {ok : Site → Prop} (hr : Recurs env ok) (n : Node)

include hr

/-! ### Exported declarations and bodies -/

omit hr in
lemma wrapExport_follows {declaration : EsNode} (h : Settled env.file declaration) :
    Follows env ok (wrapExport n declaration) [] (Settled env.file) := by
  unfold wrapExport
  split
  · refine (tokenAt_harmless _).after fun after _ => ?_
    obtain ⟨_, after⟩ := after
    dsimp -zeta only
    extract_lets default? rest
    have hrest (start : Nat) : Follows env ok (rest start) [] (Settled env.file) := by
      refine (restart_follows _ h).after fun inner hi => .branch (make_follows ?_) (make_follows ?_)
      · simpa using hi
      · simpa using hi
    cases default? with
    | some word => exact (tokenAt_harmless _).after fun _ _ => hrest _
    | none => exact hrest _
  · exact .pure h

omit hr in
lemma directiveText?_harmless : Harmless env ok (directiveText? n) := by
  unfold directiveText?
  refine .branch (.pure trivial) ?_
  split
  · exact .branch (.pure trivial) ((tokensOf_harmless _).after fun _ _ =>
      (sourceOf_harmless _).after fun _ _ => .pure trivial)
  · exact .pure trivial

lemma bodyFrom_follows (prologue : Bool) (ms : List Node) :
    Follows env ok (bodyFrom n prologue ms) (Needs.each n ms)
      (fun cs => ∀ c ∈ cs, Settled env.file c) := by
  induction ms generalizing prologue with
  | nil => exact .pure (by simp)
  | cons m ms ih =>
    refine Follows.bind (convertPart_follows hr n m false) fun converted hc => ?_
    extract_lets rest
    have hrest (text? : Option String) : Follows env ok (rest text?) (Needs.each n ms)
        (fun cs => ∀ c ∈ cs, Settled env.file c) := by
      refine (ih _).andThen fun cs hcs => .pure ?_
      simp only [List.mem_cons, forall_eq_or_imp]
      refine ⟨?_, hcs⟩
      split
      · split
        · exact settled_setSlot hc (by simp)
        · exact hc
      · exact hc
    exact .branch ((directiveText?_harmless m).after fun t _ => hrest t) (hrest none)

lemma body_follows (r : Role) (prologue : Bool) :
    Follows env ok (body n r prologue) (Needs.all n r) (fun cs => ∀ c ∈ cs, Settled env.file c) :=
  bodyFrom_follows hr n prologue _

lemma wrappedExpression_follows (type : NodeType) (f : Field) :
    Follows env ok (wrappedExpression n type f) (Needs.must n .expression) (Settled env.file) :=
  (child_follows hr n _).andThen fun _ he => finish_follows (by simpa using he)

/-! ### Namespaces -/

lemma qualify_follows {id : EsNode} (ms : List Node) (h : Settled env.file id) :
    Follows env ok (qualify id ms) (ms.flatMap (Needs.must · .name)) (Settled env.file) := by
  induction ms generalizing id with
  | nil => exact .pure h
  | cons m ms ih =>
    refine (child_follows hr m _).bind fun right hright => ?_
    exact (make_follows (by simp [h, hright])).after fun joined hj => ih hj

lemma moduleDeclaration_follows :
    Follows env ok (moduleDeclaration n) (Needs.moduleDeclaration n) (Settled env.file) := by
  unfold Needs.moduleDeclaration Needs.nestedModules
  have name := child_follows hr n .name
  unfold moduleDeclaration require
  cases h : n.part? .name with
  | none => exact (Follows.abort (.throw _)).congr (by simp [Needs.must, h])
  | some m =>
    simp only [pure_bind, Option.any_some, List.append_assoc]
    refine name.bind fun id hid => ?_
    refine (qualify_follows hr _ hid).bind fun id hid => ?_
    refine (child?_follows hr _ _).andThen fun body hb => ?_
    exact (finish_follows (by simp_all)).after fun d hd => wrapExport_follows n hd

lemma moduleBlock_follows :
    Follows env ok (moduleBlock n) (Needs.all n .element) (Settled env.file) :=
  (body_follows hr n _ _).andThen fun _ hs => finish_follows (by simpa using hs)

/-! ### Imports -/

lemma importSpecifiers_follows (clause : Node) :
    Follows env ok (importSpecifiers n clause) (Needs.importClause n clause)
      (fun cs => ∀ c ∈ cs, Settled env.file c) := by
  unfold importSpecifiers Needs.importClause
  extract_lets rest
  have hrest (first : List EsNode) (h : ∀ c ∈ first, Settled env.file c) :
      Follows env ok (rest first)
        (Needs.inside clause .namedBindings fun bindings =>
          if bindings.isForm .namespaceImport then [some ⟨clause.kind, bindings⟩]
          else Needs.all bindings .element) (fun cs => ∀ c ∈ cs, Settled env.file c) := by
    have done (more : List EsNode) (hm : ∀ c ∈ more, Settled env.file c) :
        Follows env ok (pure (first ++ more) : Convert (List EsNode)) []
          (fun cs => ∀ c ∈ cs, Settled env.file c) := by
      refine .pure fun c hc => ?_
      rcases List.mem_append.1 hc with hc | hc
      · exact h c hc
      · exact hm c hc
    unfold rest Needs.inside
    cases clause.part? .namedBindings with
    | none => exact done [] (by simp)
    | some bindings =>
      refine .ite (fun _ => ?_) fun _ => (children_follows hr bindings _).andThen done
      exact (convertPart_follows hr clause bindings _).andThen fun c hc =>
        done [c] (by simpa using hc)
  split
  · exact (convertPart_follows hr n clause _).bind fun c hc => hrest [c] (by simpa using hc)
  · exact hrest [] (by simp)

lemma moduleAttributes_follows :
    Follows env ok (moduleAttributes n) (Needs.attributes n)
      (fun cs => ∀ c ∈ cs, Settled env.file c) := by
  unfold moduleAttributes Needs.attributes Needs.inside
  cases n.part? .attributes with
  | some list => exact children_follows hr list _
  | none => exact .pure (by simp)

lemma importDeclaration_follows :
    Follows env ok (importDeclaration n) (Needs.importDeclaration n) (Settled env.file) := by
  unfold importDeclaration Needs.importDeclaration
  extract_lets clause? rest
  have hrest (specifiers : List EsNode) (h : ∀ c ∈ specifiers, Settled env.file c) :
      Follows env ok (rest specifiers) (Needs.must n .moduleSpecifier ++ Needs.attributes n)
        (Settled env.file) := by
    refine (child_follows hr n _).bind fun source hs => ?_
    exact (moduleAttributes_follows hr n).andThen fun attributes ha => finish_follows (by simp_all)
  rw [List.append_assoc]
  unfold Needs.inside
  have hclause : n.part? .importClause = clause? := rfl
  rw [hclause]
  clear_value clause?
  cases clause? with
  | some clause => exact (importSpecifiers_follows hr n clause).bind hrest
  | none => exact hrest [] (by simp)

lemma importDefault_follows :
    Follows env ok (importDefault n) (Needs.must n .name) (Settled env.file) :=
  (child_follows hr n _).andThen fun _ hl => make_follows (by simpa using hl)

lemma namespaceImport_follows :
    Follows env ok (namespaceImport n) (Needs.must n .name) (Settled env.file) :=
  (child_follows hr n _).andThen fun _ hl => finish_follows (by simpa using hl)

lemma importSpecifier_follows :
    Follows env ok (importSpecifier n) (Needs.specifier n) (Settled env.file) := by
  refine Follows.bind (child_follows hr n _) fun imported hi => ?_
  exact (child_follows hr n _).andThen fun localName hl => finish_follows (by simp_all)

lemma exportSpecifier_follows :
    Follows env ok (exportSpecifier n) (Needs.specifier n) (Settled env.file) := by
  refine Follows.bind (child_follows hr n _) fun localName hl => ?_
  exact (child_follows hr n _).andThen fun exported he => finish_follows (by simp_all)

lemma importAttribute_follows :
    Follows env ok (importAttribute n) (Needs.must n .name ++ Needs.must n .value)
      (Settled env.file) := by
  refine (child_follows hr n _).bind fun key hk => ?_
  exact (child_follows hr n _).andThen fun value hv => finish_follows (by simp_all)

lemma attributesObject_follows :
    Follows env ok (attributesObject n)
      ((n.partsOf .element).flatMap fun e => Needs.must e .name ++ Needs.must e .value)
      (Settled env.file) := by
  have entry (e : Node) : Follows env ok
      (do
        let key ← child e .name
        let value ← child e .value
        finish e .property
          (propertyParts (.flag .isComputed false) key "init" false false false value))
      (Needs.must e .name ++ Needs.must e .value) (Settled env.file) := by
    refine (child_follows hr e _).bind fun key hk => ?_
    exact (child_follows hr e _).andThen fun value hv =>
      finish_follows (by simp [propertyParts, hk, hv])
  refine (Follows.mapM (n.partsOf .element) fun e _ => entry e).andThen fun properties hp => ?_
  refine (tokensOf_harmless n).after fun r _ => (findToken_harmless _ _).after fun opening _ => ?_
  exact make_follows (by simpa using hp.2)

lemma importEquals_follows :
    Follows env ok (importEquals n) (Needs.must n .name ++ Needs.must n .moduleReference)
      (Settled env.file) := by
  refine (child_follows hr n _).bind fun id hid => ?_
  refine (child_follows hr n _).andThen fun reference href => ?_
  exact (finish_follows (by simp_all)).after fun d hd => wrapExport_follows n hd

/-! ### Exports -/

lemma exportDeclaration_follows :
    Follows env ok (exportDeclaration n) (Needs.exportDeclaration n) (Settled env.file) := by
  unfold exportDeclaration Needs.exportDeclaration exportAll
  have done (exported : Option EsNode) (he : ∀ c ∈ exported, Settled env.file c) :
      Follows env ok (do
        let source ← child n .moduleSpecifier
        let attributes ← moduleAttributes n
        finish n .exportAllDeclaration
          [.list .attributes attributes, .text .exportKind (kindText n.isFlagged),
            .one? .exported exported, .one .source source])
        (Needs.must n .moduleSpecifier ++ Needs.attributes n) (Settled env.file) := by
    refine (child_follows hr n _).bind fun source hs => ?_
    exact (moduleAttributes_follows hr n).andThen fun attributes ha => finish_follows (by simp_all)
  cases n.part? .exportClause with
  | none => exact done none (by simp)
  | some clause =>
    refine .ite (fun _ => ?_) fun _ => ?_
    · rw [List.append_assoc]
      refine (children_follows hr clause _).bind fun specifiers hs => ?_
      refine (child?_follows hr n _).bind fun source hsource => ?_
      exact (moduleAttributes_follows hr n).andThen fun attributes ha =>
        finish_follows (by simp_all)
    · rw [List.append_assoc]
      refine Follows.bind ((child_follows hr clause .name).map fun c hc => ?_) done
      simpa using hc

lemma exportAssignment_follows :
    Follows env ok (exportAssignment n) (Needs.must n .expression) (Settled env.file) := by
  refine (child_follows hr n _).andThen fun e he => ?_
  exact .branch (finish_follows (by simpa using he)) (finish_follows (by simpa using he))

lemma namespaceExport_follows :
    Follows env ok (namespaceExport n) (Needs.must n .name) (Settled env.file) :=
  (child_follows hr n _).andThen fun _ hid => finish_follows (by simpa using hid)

/-! ### Functions -/

/-- The nodes in the parts of a function stand right. -/
abbrev SignatureSettled (file : SourceFile) (s : Signature) : Prop :=
  PartsSettled file (signatureParts s)

lemma signature_follows :
    Follows env ok (signature n) (Needs.signature n) (SignatureSettled env.file) := by
  unfold Needs.signature
  rw [List.append_assoc]
  refine (typeParameters?_follows hr n).bind fun typeParameters ht => ?_
  refine (parameters_follows hr n).bind fun params hp => ?_
  refine (declaredType?_follows hr n).andThen fun returnType hreturn => .pure ?_
  simp only [SignatureSettled, signatureParts]
  simp_all

omit hr in
lemma functionParts_settled {async : Bool} {declared generator : Bool} {id body : Option EsNode}
    {s : Signature} (hid : ∀ c ∈ id, Settled env.file c) (hbody : ∀ c ∈ body, Settled env.file c)
    (hs : SignatureSettled env.file s) :
    PartsSettled env.file
      (functionParts (.flag .isAsync async) declared generator id body s) := by
  simp only [functionParts, partsHold_append, partsHold_flag, partsHold_one?]
  exact ⟨⟨hbody, hid, partsHold_nil⟩, hs⟩

lemma functionDeclaration_follows :
    Follows env ok (functionDeclaration n)
      (Needs.may n .name ++ (Needs.signature n ++ Needs.may n .body)) (Settled env.file) := by
  refine (child?_follows hr n _).bind fun id hid => (signature_follows hr n).bind fun s hs => ?_
  refine (child?_follows hr n _).andThen fun body hb => ?_
  exact (finish_follows (functionParts_settled hid hb hs)).after fun _ hd => wrapExport_follows n hd

lemma functionExpression_follows :
    Follows env ok (functionExpression n)
      (Needs.may n .name ++ (Needs.signature n ++ Needs.may n .body)) (Settled env.file) := by
  refine (child?_follows hr n _).bind fun id hid => (signature_follows hr n).bind fun s hs => ?_
  exact (child?_follows hr n _).andThen fun body hb =>
    finish_follows (functionParts_settled hid hb hs)

lemma arrowFunction_follows :
    Follows env ok (arrowFunction n) (Needs.signature n ++ Needs.must n .body)
      (Settled env.file) := by
  refine (signature_follows hr n).bind fun s hs => ?_
  refine (child_follows hr n _).andThen fun body hb => finish_follows ?_
  simpa [isAsync, hb] using hs

lemma methodValue_follows (async generator : Bool) :
    Follows env ok (methodValue n (.flag .isAsync async) generator)
      (Needs.signature n ++ Needs.may n .body) (Settled env.file) := by
  refine (signature_follows hr n).bind fun s hs => ?_
  exact (child?_follows hr n _).andThen fun body hb =>
    make_follows (functionParts_settled (by simp) hb hs)

lemma propertySignature_follows :
    Follows env ok (propertySignature n) (Needs.must n .name ++ Needs.may n .declaredType)
      (Settled env.file) := by
  refine (child_follows hr n _).bind fun key hk => ?_
  refine (declaredType?_follows hr n).andThen fun type ht => finish_follows ?_
  simpa [accessibility, isComputed, hk] using ht

lemma methodSignature_follows :
    Follows env ok (methodSignature n) (Needs.must n .name ++ Needs.signature n)
      (Settled env.file) := by
  refine (child_follows hr n _).bind fun key hk => ?_
  refine (signature_follows hr n).andThen fun s hs => finish_follows ?_
  simp only [SignatureSettled, signatureParts, partsHold_list, partsHold_extra] at hs
  simp [accessibility, isComputed, hk]
  exact ⟨hs.1, hs.2.1, hs.2.2.1⟩

lemma indexSignature_follows :
    Follows env ok (indexSignature n) (Needs.all n .parameter ++ Needs.may n .declaredType)
      (Settled env.file) := by
  refine (children_follows hr n _).bind fun parameters hp => ?_
  refine (declaredType?_follows hr n).andThen fun type ht => finish_follows ?_
  simp only [accessibility, partsHold_text?]
  simp_all

lemma callSignature_follows (type : NodeType) :
    Follows env ok (callSignature n type) (Needs.signature n) (Settled env.file) :=
  (signature_follows hr n).andThen fun _ hs => finish_follows hs

lemma functionType_follows :
    Follows env ok (functionType n) (Needs.signature n) (Settled env.file) := by
  refine (signature_follows hr n).andThen fun s hs => ?_
  exact .branch (finish_follows hs) (finish_follows ((partsHold_flag _ _ _).2 hs))

/-! ### Classes -/

lemma heritageTypes_follows (clause : Node) (type : NodeType) :
    Follows env ok (heritageTypes clause type) ((clause.partsOf .element).flatMap Needs.applied)
      (fun cs => cs.length = (clause.partsOf .element).length ∧ ∀ c ∈ cs, Settled env.file c) :=
  .mapM _ fun m _ => heritageType_follows hr m type

lemma superClass_follows (clause : Node) :
    Follows env ok (superClass clause) ((clause.partsOf .element).head?.elim [] Needs.applied)
      (fun p => (∀ c ∈ p.1, Settled env.file c) ∧ ∀ c ∈ p.2, Settled env.file c) := by
  unfold superClass
  cases (clause.partsOf .element).head? with
  | none => exact .pure (by simp)
  | some first =>
    refine Follows.bind (child_follows hr first _) fun e he => ?_
    refine (typeArguments?_follows hr first).andThen fun args ha => .pure ⟨?_, ha⟩
    simpa using he

/-- What the clauses before have given stands right. -/
structure HeritageSettled (file : SourceFile) (h : Heritage) : Prop where
  superClass : ∀ c ∈ h.superClass, Settled file c
  superTypeArguments : ∀ c ∈ h.superTypeArguments, Settled file c
  implements : ∀ c ∈ h.implements, Settled file c

/-- Clause after clause, the fold reads what `Needs.heritage` lists. -/
lemma heritage_follows (clauses : List Node) (h : Heritage) (hh : HeritageSettled env.file h) :
    Follows env ok (clauses.foldlM heritageStep h)
      (Needs.heritage h.sawExtends (!h.implements.isEmpty) clauses)
      (HeritageSettled env.file) := by
  induction clauses generalizing h with
  | nil => exact .pure hh
  | cons c cs ih =>
    rw [List.foldlM_cons, heritageStep]
    unfold Needs.heritage
    by_cases hword : (c.word? == some .extendsKw) = true
    · simp only [hword, if_true]
      by_cases hsaw : h.sawExtends = true
      · simp only [hsaw, if_true]
        have := ih h hh
        rw [hsaw] at this
        simpa using this
      · simp only [hsaw, Bool.false_eq_true, if_false, bind_assoc]
        refine (superClass_follows hr c).bind fun p hp => ?_
        exact ih { h with superClass := p.1, superTypeArguments := p.2, sawExtends := true }
          ⟨hp.1, hp.2, hh.implements⟩
    · simp only [hword, Bool.false_eq_true, if_false]
      cases hempty : h.implements.isEmpty with
      | true =>
        simp only [if_true, bind_assoc, Bool.not_true, Bool.false_eq_true, if_false]
        refine (heritageTypes_follows hr c _).bind fun types ht => ?_
        have hlen : (c.partsOf .element).isEmpty = types.isEmpty := by
          rw [Bool.eq_iff_iff, List.isEmpty_iff_length_eq_zero, List.isEmpty_iff_length_eq_zero,
            ht.1]
        rw [hlen]
        exact ih { h with implements := types } ⟨hh.superClass, hh.superTypeArguments, ht.2⟩
      | false =>
        have := ih h hh
        rw [hempty] at this
        simpa using this

omit hr in
lemma memberBody_follows {members : List EsNode} (type : NodeType) (f : Field)
    (h : ∀ c ∈ members, Settled env.file c) :
    Follows env ok (memberBody n type f members) [] (Settled env.file) :=
  make_follows (by simpa using h)

lemma classLike_follows (type : NodeType) :
    Follows env ok (classLike n type) (Needs.classLike n) (Settled env.file) := by
  unfold Needs.classLike
  simp only [List.append_assoc]
  refine (decorators_follows hr n).bind fun decorators hd => ?_
  refine (child?_follows hr n _).bind fun id hid => ?_
  refine (typeParameters?_follows hr n).bind fun typeParameters ht => ?_
  refine (heritage_follows hr _ {} ⟨by simp, by simp, by simp⟩).bind fun heritage hh => ?_
  refine (convertAll_follows hr n _ _).andThen fun members hm => ?_
  refine (memberBody_follows n _ _ hm.2).after fun body hb => finish_follows ?_
  obtain ⟨h1, h2, h3⟩ := hh
  simp_all

lemma classDeclaration_follows :
    Follows env ok (classDeclaration n) (Needs.classLike n) (Settled env.file) :=
  (classLike_follows hr n _).andThen fun _ hd => wrapExport_follows n hd

/-! ### Members -/

lemma propertyDeclaration_follows :
    Follows env ok (propertyDeclaration n) (Needs.property n) (Settled env.file) := by
  unfold Needs.property
  simp only [List.append_assoc]
  refine (decorators_follows hr n).bind fun decorators hd => ?_
  refine (child_follows hr n _).bind fun key hk => ?_
  refine (declaredType?_follows hr n).bind fun type ht => ?_
  extract_lets isAbstract mark rest
  have hrest (value : Option EsNode) (h : ∀ c ∈ value, Settled env.file c) :
      Follows env ok (rest value) [] (Settled env.file) := by
    refine finish_follows ?_
    simp only [accessibility, isComputed, partsHold_text?]
    simp_all
  exact .ite (fun _ => hrest none (by simp)) fun _ => (child?_follows hr n _).andThen hrest

lemma objectMethod_follows :
    Follows env ok (objectMethod n)
      (Needs.must n .name ++ (Needs.signature n ++ Needs.may n .body)) (Settled env.file) := by
  refine (child_follows hr n _).bind fun key hk => ?_
  refine (methodValue_follows hr n _ _).andThen fun value hv => finish_follows ?_
  simp [propertyParts, isComputed, hk, hv]

lemma classMethod_follows :
    Follows env ok (classMethod n)
      (Needs.decorators n ++ (Needs.must n .name ++ (Needs.signature n ++ Needs.may n .body)))
      (Settled env.file) := by
  refine (decorators_follows hr n).bind fun decorators hd => ?_
  refine (child_follows hr n _).bind fun key hk => ?_
  refine (methodValue_follows hr n _ _).andThen fun value hv => finish_follows ?_
  simpa [accessibility, isComputed, hk, hv] using hd

lemma method_follows {k : NodeKind} (hk : env.place.parent = some k) :
    Follows env ok (method n) (Needs.method k n) (Settled env.file) := by
  refine .ofRead ?_
  unfold Needs.method
  simp only [hk, beq_iff_eq, List.append_assoc, Option.some_beq_some]
  exact .ite (fun _ => methodSignature_follows hr n) fun _ =>
    .ite (fun _ => objectMethod_follows hr n) fun _ => classMethod_follows hr n

lemma constructorMember_follows :
    Follows env ok (constructorMember n) (Needs.signature n ++ Needs.may n .body)
      (Settled env.file) := by
  refine (tokenAt_harmless _).after fun key _ => ?_
  refine (methodValue_follows hr n _ _).andThen fun value hv => ?_
  extract_lets isStatic rest
  have hrest (key : EsNode) (h : Settled env.file key) :
      Follows env ok (rest key) [] (Settled env.file) := by
    refine finish_follows ?_
    simp [accessibility, h, hv]
  refine .branch ((sourceOf_harmless _).after fun raw _ => ?_) ?_
  · exact (make_follows (by simp [literalParts])).after hrest
  · exact (make_follows (by simp [identifierParts])).after hrest

lemma staticBlock_follows :
    Follows env ok (staticBlock n) (Needs.within n .body (Needs.all · .element))
      (Settled env.file) :=
  within_follows n _ fun m => (body_follows hr m _ _).andThen fun _ hs =>
    finish_follows (by simpa using hs)

/-! ### Interfaces, aliases and enums -/

lemma interfaceDeclaration_follows :
    Follows env ok (interfaceDeclaration n) (Needs.interface n) (Settled env.file) := by
  unfold Needs.interface
  simp only [List.append_assoc]
  refine (child_follows hr n _).bind fun id hid => ?_
  refine (typeParameters?_follows hr n).bind fun typeParameters ht => ?_
  refine (Follows.mapM _ fun c _ => (heritageTypes_follows hr c _).weaken fun _ h => h.2).bind
    fun extended he => ?_
  refine (children_follows hr n _).andThen fun members hm => ?_
  refine (memberBody_follows n _ _ hm).after fun body hb => ?_
  refine (finish_follows ?_).after fun _ hd => wrapExport_follows n hd
  have hflat : ∀ c ∈ extended.flatten, Settled env.file c := by
    intro c hc
    obtain ⟨cs, hcs, hc⟩ := List.mem_flatten.1 hc
    exact he.2 cs hcs c hc
  simp only [partsHold_one, partsHold_flag, partsHold_list, partsHold_extra,
    partsHold_nil]
  exact ⟨hb, hflat, hid, ht, trivial⟩

lemma typeAlias_follows :
    Follows env ok (typeAlias n)
      (Needs.must n .name ++ (Needs.listed n .typeParameter ++ Needs.must n .type))
      (Settled env.file) := by
  refine (child_follows hr n _).bind fun id hid => ?_
  refine (typeParameters?_follows hr n).bind fun typeParameters htp => ?_
  refine (child_follows hr n _).andThen fun type ht => ?_
  exact (finish_follows (by simp_all)).after fun _ hd => wrapExport_follows n hd

lemma enumDeclaration_follows :
    Follows env ok (enumDeclaration n) (Needs.must n .name ++ Needs.all n .member)
      (Settled env.file) := by
  refine (child_follows hr n _).bind fun id hid => ?_
  refine (children_follows hr n _).andThen fun members hm => ?_
  refine (memberBody_follows n _ _ hm).after fun body hb => ?_
  exact (finish_follows (by simp_all)).after fun _ hd => wrapExport_follows n hd

lemma enumMember_follows :
    Follows env ok (enumMember n) (Needs.must n .name ++ Needs.may n .value)
      (Settled env.file) := by
  refine (child_follows hr n _).bind fun id hid => ?_
  refine (child?_follows hr n _).andThen fun initializer hi => finish_follows ?_
  simpa [isComputed, hid] using hi

end EstreeLint.Estree.Convert
