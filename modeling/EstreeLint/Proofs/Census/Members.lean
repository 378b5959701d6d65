import EstreeLint.Proofs.Census.Declarations

/-!
The rules for functions, classes and their members spend what they convert.
-/

namespace EstreeLint.Estree.Convert

variable {env : Env} (hr : Counts env) {n : Node} (hs : SitedIn env.file n)

include hr hs

/-! ### Functions -/

/-- The nodes in the parts of a function are proper. -/
abbrev SignatureProper (file : SourceFile) (s : Signature) : Prop :=
  PartsHold (Proper file) (signatureParts s)

lemma signature_spends : Spends env 0 (signature n) (SignatureProper env.file) := by
  refine (typeParameters?_spends hr hs).bind fun typeParameters ht => ?_
  refine (parameters_spends hr hs).bind fun params hp => ?_
  refine (declaredType?_spends hr hs).bind fun returnType hreturn => .pure ?_ ?_
  · rw [← ids_signatureParts, signatureParts]
    simp [add_comm, add_assoc]
  · simp only [SignatureProper, signatureParts]
    simp_all

omit hr hs in
lemma functionParts_proper {async declared generator : Bool} {id body : Option EsNode}
    {s : Signature} (hid : ∀ c ∈ id, Proper env.file c) (hbody : ∀ c ∈ body, Proper env.file c)
    (hsig : SignatureProper env.file s) :
    PartsHold (Proper env.file)
      (functionParts (.flag .isAsync async) declared generator id body s) := by
  simp only [functionParts, partsHold_append, partsHold_flag, partsHold_one?]
  exact ⟨⟨hbody, hid, partsHold_nil⟩, hsig⟩

lemma functionDeclaration_spends : Spends env 0 (functionDeclaration n) (Proper env.file) := by
  refine (child?_spends hr hs _).bind fun id hid => (signature_spends hr hs).bind fun s hsig => ?_
  refine (child?_spends hr hs _).bind fun body hb => ?_
  refine exported_spends hs (finish_spends hs (functionParts_proper hid hb hsig) ?_ ?_)
  · split <;> exact .plain rfl
  · simp [isAsync, add_comm, add_assoc]

lemma functionExpression_spends : Spends env 0 (functionExpression n) (Proper env.file) := by
  refine (child?_spends hr hs _).bind fun id hid => (signature_spends hr hs).bind fun s hsig => ?_
  refine (child?_spends hr hs _).bind fun body hb => ?_
  refine finish_spends hs (functionParts_proper hid hb hsig) (.plain rfl) ?_
  simp [isAsync, add_comm, add_assoc]

lemma arrowFunction_spends : Spends env 0 (arrowFunction n) (Proper env.file) := by
  refine (signature_spends hr hs).bind fun s hsig => ?_
  exact (child_spends hr hs _).bind fun body hb =>
    finish_spends hs (by simpa [isAsync, hb] using hsig) (.plain rfl) (by simp)

omit hr in
/-- A list stands behind a delimiter, unless there is no list. -/
lemma openingOf_cut {r : Role} (hopens : Grammar.opensList n.kind r = true) :
    CutAt env.file (openingOf n r) := by
  unfold openingOf
  cases hl : n.list? r with
  | none => exact fun _ => Text.isCut_zero _
  | some l => exact (hs.anchored.lists r l hl).2 hopens

lemma methodValue_spends (async generator : Bool) (hk : n.kind ≠ .form .arrowFunction) :
    Spends env 0 (methodValue n (.flag .isAsync async) generator) (Proper env.file) := by
  refine (signature_spends hr hs).bind fun s hsig => ?_
  refine (child?_spends hr hs _).bind fun body hb => ?_
  refine make_spends (.between (openingOf_cut hs ?_) hs.stop)
    (functionParts_proper (by simp) hb hsig) ?_ (by simp)
  · simpa [Grammar.opensList] using hk
  · split <;> exact .plain rfl

lemma propertySignature_spends : Spends env 0 (propertySignature n) (Proper env.file) := by
  refine (child_spends hr hs _).bind fun key hk => ?_
  refine (declaredType?_spends hr hs).bind fun type ht =>
    finish_spends hs ?_ (.plain rfl) (by simp [add_comm])
  simpa [accessibility, isComputed, hk] using ht

lemma methodSignature_spends : Spends env 0 (methodSignature n) (Proper env.file) := by
  refine (child_spends hr hs _).bind fun key hk => ?_
  refine (signature_spends hr hs).bind fun s hsig => finish_spends hs ?_ (.plain rfl) ?_
  · simp only [SignatureProper, signatureParts, partsHold_list, partsHold_extra] at hsig
    simp [accessibility, isComputed, hk]
    exact ⟨hsig.1, hsig.2.1, hsig.2.2.1⟩
  · rw [← ids_signatureParts s, signatureParts]
    simp [add_comm]

lemma indexSignature_spends : Spends env 0 (indexSignature n) (Proper env.file) := by
  refine (children_spends hr hs _).bind fun parameters hp => ?_
  refine (declaredType?_spends hr hs).bind fun type ht =>
    finish_spends hs ?_ (.plain rfl) (by simp [add_comm])
  simp only [accessibility, partsHold_text?]
  simp_all

lemma callSignature_spends (type : NodeType) (htype : soleField? type = none) :
    Spends env 0 (callSignature n type) (Proper env.file) :=
  (signature_spends hr hs).bind fun _ hsig => finish_spends hs hsig (.plain htype) (by simp)

lemma functionType_spends : Spends env 0 (functionType n) (Proper env.file) := by
  refine (signature_spends hr hs).bind fun s hsig => ?_
  exact .branch (finish_spends hs hsig (.plain rfl) (by simp))
    (finish_spends hs ((partsHold_flag _ _ _).2 hsig) (.plain rfl) (by simp))

/-! ### Heritage -/

lemma heritageTypes_spends (type : NodeType) (htype : soleField? type = none) :
    Spends env 0 (heritageTypes n type) (fun cs => ∀ c ∈ cs, Proper env.file c) :=
  .mapM _ fun _ hm => heritageType_spends hr (hs.of_partsOf hm) type htype

lemma superClass_spends :
    Spends env 0 (superClass n)
      (fun p => (∀ c ∈ p.1, Proper env.file c) ∧ ∀ c ∈ p.2, Proper env.file c) := by
  unfold superClass
  split
  · exact .pure rfl (by simp)
  · next first hfirst =>
    have hsited := hs.of_partsOf (List.mem_of_mem_head? hfirst)
    refine Spends.bind (child_spends hr hsited _) fun e he => ?_
    refine (typeArguments?_spends hr hsited).bind fun args ha => .pure (by simp [add_comm]) ⟨?_, ha⟩
    simpa using he

instance : HasIds Heritage where
  ids h := ids h.superClass + ids h.superTypeArguments + ids h.implements

/-- What the clauses before have given is proper, and there is no class before one is seen. -/
structure HeritageProper (file : SourceFile) (h : Heritage) : Prop where
  superClass : ∀ c ∈ h.superClass, Proper file c
  superTypeArguments : ∀ c ∈ h.superTypeArguments, Proper file c
  implements : ∀ c ∈ h.implements, Proper file c
  unseen : h.sawExtends = false → h.superClass = none ∧ h.superTypeArguments = none

lemma heritageStep_spends {h : Heritage} (hh : HeritageProper env.file h) :
    Spends env (ids h) (heritageStep h n) (HeritageProper env.file) := by
  refine .branch (.ite (fun _ => .pure rfl hh) fun hsaw => ?_)
    (.ite (fun hempty => ?_) fun _ => .pure rfl hh)
  · obtain ⟨hnone, hnone'⟩ := hh.unseen (by simpa using hsaw)
    refine (superClass_spends hr hs).bind fun p hp => .pure ?_ ⟨hp.1, hp.2, hh.implements, nofun⟩
    change ids p.1 + ids p.2 + ids h.implements =
      ids p + (ids h.superClass + ids h.superTypeArguments + ids h.implements)
    rw [hnone, hnone', ids_none]
    change _ = ids p.1 + ids p.2 + _
    abel
  · have hnil : h.implements = [] := by simpa using hempty
    refine (heritageTypes_spends hr hs _ rfl).bind fun types ht => .pure ?_
      ⟨hh.superClass, hh.superTypeArguments, ht, hh.unseen⟩
    change ids h.superClass + ids h.superTypeArguments + ids types =
      ids types + (ids h.superClass + ids h.superTypeArguments + ids h.implements)
    rw [hnil, ids_nil]
    abel

omit hs in
lemma heritage_spends {clauses : List Node} {h : Heritage}
    (hclauses : ∀ c ∈ clauses, SitedIn env.file c) (hh : HeritageProper env.file h) :
    Spends env (ids h) (clauses.foldlM heritageStep h) (HeritageProper env.file) := by
  induction clauses generalizing h with
  | nil => exact .pure rfl hh
  | cons c cs ih =>
    rw [List.foldlM_cons]
    refine (heritageStep_spends hr (hclauses c (by simp)) hh).andThen fun h hh => ?_
    exact ih (fun c hc => hclauses c (by simp [hc])) hh

/-! ### Classes -/

omit hr in
lemma memberBody_spends {members : List EsNode} {type : NodeType} {f : Field}
    (h : ∀ c ∈ members, Proper env.file c) (hk : n.kind ≠ .form .mappedType)
    (htype : soleField? type = none) :
    Spends env (ids members) (memberBody n type f members) (Proper env.file) := by
  refine make_spends (.between (openingOf_cut hs ?_) hs.stop) (by simpa using h) (.plain htype)
    (by simp)
  simpa [Grammar.opensList] using hk

lemma classLike_spends (type : NodeType) (hk : n.kind ≠ .form .mappedType)
    (htype : soleField? type = none) :
    Spends env 0 (classLike n type) (Proper env.file) := by
  refine (decorators_spends hr hs).bind fun decorators hd => ?_
  refine (child?_spends hr hs _).bind fun id hid => ?_
  refine (typeParameters?_spends hr hs).bind fun typeParameters ht => ?_
  have hclauses : ∀ c ∈ n.partsOf .heritage, SitedIn env.file c := fun _ hm => hs.of_partsOf hm
  have hheritage := heritage_spends hr hclauses (h := {}) ⟨by simp, by simp, by simp, by simp⟩
  refine Spends.bind hheritage fun heritage hh => ?_
  refine (convertAll_spends hr hs false fun _ hm =>
    (List.mem_filter.1 (List.mem_filter.1 hm).1).1).bind fun members hm => ?_
  refine (memberBody_spends hs hm hk rfl).sub rfl fun body hb => ?_
  obtain ⟨hsuper, hargs, himplements, -⟩ := hh
  refine finish_spends hs (by simp_all) (.plain htype) ?_
  change _ = _ + (ids heritage.superClass + ids heritage.superTypeArguments +
    ids heritage.implements + _)
  simp [add_comm, add_left_comm, add_assoc]

lemma classDeclaration_spends (hk : n.kind ≠ .form .mappedType) :
    Spends env 0 (classDeclaration n) (Proper env.file) :=
  exported_spends hs (classLike_spends hr hs _ hk rfl)

/-! ### Members -/

omit hr hs in
lemma soleField?_propertyType (isAccessor isAbstract : Bool) :
    soleField? (propertyType isAccessor isAbstract) = none := by
  cases isAccessor <;> cases isAbstract <;> rfl

omit hr hs in
lemma soleField?_methodType : soleField? (methodType n) = none := by
  unfold methodType
  split <;> rfl

lemma propertyDeclaration_spends : Spends env 0 (propertyDeclaration n) (Proper env.file) := by
  refine (decorators_spends hr hs).bind fun decorators hd => ?_
  refine (child_spends hr hs _).bind fun key hk => ?_
  refine (declaredType?_spends hr hs).bind fun type ht => ?_
  extract_lets isAbstract mark rest
  have hrest (value : Option EsNode) (h : ∀ c ∈ value, Proper env.file c) :
      Spends env (ids value + (ids type + (ids key + (ids decorators + 0)))) (rest value)
        (Proper env.file) := by
    refine finish_spends hs ?_ (.plain (soleField?_propertyType _ _))
      (by simp [add_comm, add_left_comm, add_assoc])
    simp only [accessibility, isComputed, partsHold_text?]
    simp_all
  refine .branch ?_ ((child?_spends hr hs _).bind hrest)
  simpa using hrest none (by simp)

lemma objectMethod_spends (hform : n.kind ≠ .form .arrowFunction) :
    Spends env 0 (objectMethod n) (Proper env.file) := by
  refine (child_spends hr hs _).bind fun key hk => ?_
  refine (methodValue_spends hr hs _ _ hform).bind fun value hv => ?_
  refine finish_spends hs ?_ (.plain rfl) ?_
  · simp [propertyParts, isComputed, hk, hv]
  · simp [isComputed, add_comm]

lemma classMethod_spends (hform : n.kind ≠ .form .arrowFunction) :
    Spends env 0 (classMethod n) (Proper env.file) := by
  refine (decorators_spends hr hs).bind fun decorators hd => ?_
  refine (child_spends hr hs _).bind fun key hk => ?_
  refine (methodValue_spends hr hs _ _ hform).bind fun value hv => ?_
  refine finish_spends hs ?_ (.plain soleField?_methodType)
    (by simp [add_comm, add_left_comm, add_assoc])
  simpa [accessibility, isComputed, hk, hv] using hd

lemma method_spends (hform : n.kind ≠ .form .arrowFunction) :
    Spends env 0 (method n) (Proper env.file) :=
  .ofRead (.branch (methodSignature_spends hr hs)
    (.branch (objectMethod_spends hr hs hform) (classMethod_spends hr hs hform)))

omit hr in
/-- Behind the modifiers, or at the front where there are none. -/
lemma modifiers_stop : CutAt env.file (((n.partsOf .modifier).map (·.stop)).max?.getD n.pos) := by
  cases hmax : ((n.partsOf .modifier).map (·.stop)).max? with
  | none => exact hs.pos
  | some stop =>
    obtain ⟨m, hm, rfl⟩ := List.mem_map.1 (List.max?_mem hmax)
    exact SitedIn.stop (hs.of_partsOf hm)

lemma constructorMember_spends (hform : n.kind ≠ .form .arrowFunction) :
    Spends env 0 (constructorMember n) (Proper env.file) := by
  refine .after (tokenAt_looks (modifiers_stop hs)) fun key hkey => ?_
  refine (methodValue_spends hr hs _ _ hform).bind fun value hv => ?_
  extract_lets isStatic rest
  have hrest (key : EsNode) (h : Proper env.file key) :
      Spends env (ids key + (ids value + 0)) (rest key) (Proper env.file) :=
    finish_spends hs (by simp [accessibility, h, hv]) (.plain soleField?_methodType) (by simp)
  refine .branch (.after (sourceOf_looks _) fun raw _ => ?_) ?_
  · exact (make_spends hkey (by simp [literalParts]) (.plain rfl) (by simp)).bind hrest
  · exact (make_spends hkey (by simp [identifierParts]) (.plain rfl) (by simp)).bind hrest

lemma staticBlock_spends : Spends env 0 (staticBlock n) (Proper env.file) :=
  require_spends fun _ hm => (body_spends hr (hs.of_part? hm) _ _).bind fun _ hb =>
    finish_spends hs (by simpa using hb) (.plain rfl) (by simp)

/-! ### Interfaces, aliases and enums -/

lemma interfaceDeclaration_spends (hk : n.kind ≠ .form .mappedType) :
    Spends env 0 (interfaceDeclaration n) (Proper env.file) := by
  refine (child_spends hr hs _).bind fun id hid => ?_
  refine (typeParameters?_spends hr hs).bind fun typeParameters ht => ?_
  refine (Spends.mapM (clausesOf n .extendsKw) fun c hc =>
    heritageTypes_spends hr (hs.of_partsOf (List.mem_filter.1 hc).1) .tsInterfaceHeritage rfl).bind
      fun extended he => ?_
  refine (children_spends hr hs _).bind fun members hm => ?_
  refine (memberBody_spends hs hm hk rfl).sub rfl fun body hb => ?_
  refine exported_spends hs (finish_spends hs ?_ (.plain rfl) (by simp [add_comm]))
  have hflat : ∀ c ∈ extended.flatten, Proper env.file c := by
    intro c hc
    obtain ⟨cs, hcs, hc⟩ := List.mem_flatten.1 hc
    exact he cs hcs c hc
  simp only [partsHold_one, partsHold_flag, partsHold_list, partsHold_extra, partsHold_nil]
  exact ⟨hb, hflat, hid, ht, trivial⟩

lemma typeAlias_spends : Spends env 0 (typeAlias n) (Proper env.file) := by
  refine (child_spends hr hs _).bind fun id hid => ?_
  refine (typeParameters?_spends hr hs).bind fun typeParameters htp => ?_
  refine (child_spends hr hs _).bind fun type ht => ?_
  exact exported_spends hs
    (finish_spends hs (by simp_all) (.plain rfl) (by simp [add_comm, add_left_comm]))

lemma enumDeclaration_spends (hk : n.kind ≠ .form .mappedType) :
    Spends env 0 (enumDeclaration n) (Proper env.file) := by
  refine (child_spends hr hs _).bind fun id hid => ?_
  refine (children_spends hr hs _).bind fun members hm => ?_
  refine (memberBody_spends hs hm hk rfl).sub rfl fun body hb => ?_
  exact exported_spends hs (finish_spends hs (by simp_all) (.plain rfl) (by simp))

lemma enumMember_spends : Spends env 0 (enumMember n) (Proper env.file) := by
  refine (child_spends hr hs _).bind fun id hid => ?_
  refine (child?_spends hr hs _).bind fun initializer hi => finish_spends hs ?_
    (.plain rfl) (by simp [add_comm])
  simpa [isComputed, hid] using hi

end EstreeLint.Estree.Convert
