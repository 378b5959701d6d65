import EstreeLint.Estree.Conversion
import EstreeLint.Proofs.Estree.Types

/-!
The rules for expressions, patterns and elements follow their needs.
-/

namespace EstreeLint.Estree.Convert

variable {env : Env} {ok : Site → Prop} (hr : Recurs env ok) (n : Node)

include hr

/-! ### Arrays and objects -/

lemma arrayLiteral_follows :
    Follows env ok (arrayLiteral n) (Needs.filled n) (Settled env.file) := by
  refine isTarget_harmless.after fun t _ => ?_
  refine (childrenOrHoles_follows hr n t).andThen fun elements he => ?_
  refine isTarget_harmless.after fun t _ => .branch (finish_follows ?_) (finish_follows ?_) <;>
    simpa using he

lemma objectLiteral_follows :
    Follows env ok (objectLiteral n) (Needs.all n .element) (Settled env.file) := by
  refine isTarget_harmless.after fun t _ => ?_
  refine (convertAll_follows hr n _ t).andThen fun properties hp => ?_
  refine isTarget_harmless.after fun t _ => .branch (finish_follows ?_) (finish_follows ?_) <;>
    simpa using hp.2

lemma propertyAssignment_follows :
    Follows env ok (propertyAssignment n) (Needs.must n .name ++ Needs.must n .value)
      (Settled env.file) := by
  refine (child_follows hr n _).bind fun key hk => isTarget_harmless.after fun t _ => ?_
  have done (value : EsNode) (hv : Settled env.file value) :
      Follows env ok (finish n .property
        (propertyParts (isComputed n .name) key "init" false false false value)) []
        (Settled env.file) :=
    finish_follows (by simp [propertyParts, isComputed, hk, hv])
  exact .branch ((target_follows hr n _).andThen done) ((child_follows hr n _).andThen done)

lemma shorthandProperty_follows :
    Follows env ok (shorthandProperty n) (Needs.must n .name ++ Needs.may n .initializer)
      (Settled env.file) := by
  -- the name is read twice: as the key and as the value
  suffices h : Follows env ok (shorthandProperty n)
      (Needs.must n .name ++ (Needs.must n .name ++ Needs.may n .initializer))
      (Settled env.file) from h.congr (by simp)
  refine (child_follows hr n .name).bind fun key hk => ?_
  have done (value : EsNode) (hv : Settled env.file value) :
      Follows env ok (finish n .property
        (propertyParts (.flag .isComputed false) key "init" false false true value)) []
        (Settled env.file) :=
    finish_follows (by simp [propertyParts, hk, hv])
  rw [Needs.may_eq]
  split
  · refine (target_follows hr n _).bind fun left hl => ?_
    refine (child_follows hr n _).andThen fun right hright =>
      (tokensOf_harmless n).after fun r _ => ?_
    exact (make_follows (by simp [assignmentParts, hl, hright])).after done
  · simpa using (child_follows hr n _).andThen done

lemma spread_follows :
    Follows env ok (spread n) (Needs.must n .expression) (Settled env.file) := by
  refine isTarget_harmless.after fun t _ => .branch ?_ ?_
  · exact (target_follows hr n _).andThen fun a ha => finish_follows (by simpa [restParts] using ha)
  · exact (child_follows hr n _).andThen fun a ha => finish_follows (by simpa using ha)

/-! ### Chains -/

omit hr in
/-- A node from within the chain, or the chain itself, lies within the chain. -/
lemma dissolve_follows {chain : EsNode} (h : Settled env.file chain) :
    Follows env ok (dissolve chain) []
      (fun m => Settled env.file m ∧ chain.range.contains m.range = true) := by
  unfold dissolve
  split
  · rename_i inner hi
    have hmem := mem_of_child? hi
    exact (modify_harmless _).after fun _ _ => .pure ⟨h.child hmem, h.inPlace.covers _ hmem⟩
  · exact .pure ⟨h, Span.contains_refl _⟩

omit hr in
lemma wrapChain_follows {link : EsNode} (f : Field) (h : Settled env.file link) :
    Follows env ok (wrapChain n link f) [] (Settled env.file) := by
  unfold wrapChain
  extract_lets optional closed subject? continues rest
  refine .branch (.pure h) ?_
  have hrest (link : EsNode) (h : Settled env.file link) :
      Follows env ok (rest link) [] (Settled env.file) := make_follows (by simpa using h)
  refine .branch ?_ (hrest _ h)
  cases hc : subject? with
  | some chain =>
    have hmem := mem_of_child? hc
    refine (dissolve_follows (h.child hmem)).after fun m hm => hrest _ (settled_setSlot h ?_)
    simp only [List.mem_singleton, forall_eq]
    exact ⟨hm.1, Span.contains_trans (h.inPlace.covers _ hmem) hm.2⟩
  | none => exact hrest _ h

lemma memberExpression_follows :
    Follows env ok (memberExpression n)
      (Needs.must n .expression ++
        Needs.must n (if n.isForm .elementAccessExpression then .argument else .name))
      (Settled env.file) := by
  refine (child_follows hr n _).bind fun object ho => ?_
  refine (child_follows hr n _).andThen fun property hp => ?_
  exact (finish_follows (by simp [ho, hp])).after fun member hm => wrapChain_follows n _ hm

lemma importExpression_follows :
    Follows env ok (importExpression n)
      (match n.partsOf .argument with
        | [] => [none]
        | source :: rest => Needs.each n (source :: rest.head?.toList)) (Settled env.file) := by
  unfold importExpression
  cases n.partsOf .argument with
  | nil => exact .throw _
  | cons source rest =>
    refine Follows.bind (convertPart_follows hr n source false) fun source hs => ?_
    have options : Follows env ok (rest.head?.mapM (convertPart n ·))
        (Needs.each n rest.head?.toList) (fun o => ∀ c ∈ o, Settled env.file c) := by
      refine ((Follows.mapM? rest.head? fun m _ => convertPart_follows hr n m false).congr
        ?_).weaken fun _ h => h.2
      cases rest.head? <;> simp
    exact options.andThen fun o ho => finish_follows (by simp_all)

lemma callExpression_follows :
    Follows env ok (callExpression n) (Needs.call n) (Settled env.file) := by
  unfold callExpression Needs.call
  refine .ite (fun _ => importExpression_follows hr n) fun _ => ?_
  rw [List.append_assoc]
  refine (child_follows hr n _).bind fun callee hc => ?_
  refine (typeArguments?_follows hr n).bind fun typeArgs ht => ?_
  refine (children_follows hr n _).andThen fun args ha => ?_
  exact (finish_follows (by simp_all)).after fun call hcall => wrapChain_follows n _ hcall

lemma nonNull_follows :
    Follows env ok (nonNull n) (Needs.must n .expression) (Settled env.file) := by
  refine (child_follows hr n _).andThen fun e he => ?_
  exact (finish_follows (by simpa using he)).after fun link hl => wrapChain_follows n _ hl

/-! ### Calls, templates and operators -/

lemma newExpression_follows :
    Follows env ok (newExpression n)
      (Needs.must n .expression ++ (Needs.listed n .typeArgument ++ Needs.all n .argument))
      (Settled env.file) := by
  refine (child_follows hr n _).bind fun callee hc => ?_
  refine (typeArguments?_follows hr n).bind fun typeArgs ht => ?_
  exact (children_follows hr n _).andThen fun args ha => finish_follows (by simp_all)

lemma taggedTemplate_follows :
    Follows env ok (taggedTemplate n)
      (Needs.must n .tag ++ (Needs.listed n .typeArgument ++ Needs.must n .template))
      (Settled env.file) := by
  refine (child_follows hr n _).bind fun tag ht => ?_
  refine (typeArguments?_follows hr n).bind fun typeArgs ht => ?_
  exact (child_follows hr n _).andThen fun quasi hq => finish_follows (by simp_all)

lemma templateExpression_follows :
    Follows env ok (templateExpression n) (Needs.template n) (Settled env.file) :=
  (templateParts_follows hr n).andThen fun _ hp => finish_follows (by simpa using hp.symm)

lemma wordOperator_follows (operator : String) :
    Follows env ok (wordOperator n operator) (Needs.must n .expression) (Settled env.file) :=
  (child_follows hr n _).andThen fun _ ha => finish_follows (by simpa [unaryParts] using ha)

lemma unaryExpression_follows :
    Follows env ok (unaryExpression n) (Needs.ofWant n .word ++ Needs.must n .operand)
      (Settled env.file) := by
  unfold unaryExpression Needs.ofWant
  cases n.word? with
  | none => exact (Follows.throw _).congr (by simp [Needs.fact])
  | some k =>
    simp only [Option.bind_some]
    cases k.text? with
    | none => exact (Follows.throw _).congr (by simp [Needs.fact])
    | some operator =>
      refine (child_follows hr n _).andThen fun argument ha => ?_
      refine .branch (finish_follows ?_) (finish_follows ?_) <;> simpa [unaryParts] using ha

lemma sequence_follows :
    Follows env ok (sequence n) (Needs.must n .left ++ Needs.must n .right)
      (Settled env.file) := by
  refine (child_follows hr n _).bind fun left hl => ?_
  extract_lets closed continues earlier
  have hearlier : ∀ c ∈ earlier, Settled env.file c := by
    unfold earlier
    split
    · exact fun c hc => hl.child (List.mem_filter.1 hc).1
    · simpa using hl
  refine (child_follows hr n _).andThen fun right hright => ?_
  refine (finish_follows ?_).after fun whole hw => ?_
  · simp only [partsHold_list, List.mem_append, List.mem_singleton, partsHold_nil, and_true]
    rintro c (hc | rfl)
    · exact hearlier c hc
    · exact hright
  · exact .branch ((modify_harmless _).after fun _ _ => .pure hw) (.pure hw)

lemma binaryExpression_follows :
    Follows env ok (binaryExpression n) (Needs.operands n) (Settled env.file) := by
  unfold binaryExpression Needs.operands
  cases (n.part? .operator).bind (·.token?) with
  | none => exact (Follows.throw _).congr (by simp [Needs.fact])
  | some k =>
    simp only [Option.any_some, List.append_assoc]
    split
    · rename_i hk
      simpa [Needs.fact, hk] using sequence_follows hr n
    · rename_i hk
      cases k.text? with
      | none => exact (Follows.throw _).congr (by simp [Needs.fact, hk])
      | some operator =>
        simp only [Option.isSome_some, Bool.or_true, Needs.fact, if_true, List.nil_append]
        refine .branch ?_ ?_
        · refine (target_follows hr n _).bind fun left hl => ?_
          refine (child_follows hr n _).andThen fun right hright => ?_
          refine isTarget_harmless.after fun t _ => .branch (finish_follows ?_) (finish_follows ?_)
          · simp [assignmentParts, hl, hright]
          · simp [operationParts, hl, hright]
        · refine (child_follows hr n _).bind fun left hl => ?_
          refine (child_follows hr n _).andThen fun right hright => finish_follows ?_
          simp [operationParts, hl, hright]

lemma conditionalExpression_follows :
    Follows env ok (conditionalExpression n)
      (Needs.must n .condition ++ (Needs.must n .whenTrue ++ Needs.must n .whenFalse))
      (Settled env.file) := by
  refine (child_follows hr n _).bind fun test ht => ?_
  refine (child_follows hr n _).bind fun whenTrue hwt => ?_
  exact (child_follows hr n _).andThen fun whenFalse hwf => finish_follows (by simp_all)

lemma yieldExpression_follows :
    Follows env ok (yieldExpression n) (Needs.may n .expression) (Settled env.file) :=
  (child?_follows hr n _).andThen fun _ ha => finish_follows (by simpa using ha)

lemma typedExpression_follows (type : NodeType) :
    Follows env ok (typedExpression n type) (Needs.must n .expression ++ Needs.must n .type)
      (Settled env.file) := by
  unfold typedExpression
  refine .branch ?_ ?_
  · refine Follows.congr ((child_follows hr n .type).bind fun t ht =>
      (child_follows hr n .expression).andThen fun e he => finish_follows ?_) ?_
    · simp [he, ht]
    · simp [and_comm]
  · refine (child_follows hr n _).bind fun e he => ?_
    exact (child_follows hr n _).andThen fun t ht => finish_follows (by simp [he, ht])

lemma metaProperty_follows :
    Follows env ok (metaProperty n) (Needs.ofWant n .word ++ Needs.must n .name)
      (Settled env.file) := by
  unfold metaProperty Needs.ofWant
  cases n.word?.bind TokenKind.text? with
  | none => exact (Follows.throw _).congr (by simp [Needs.fact])
  | some word =>
    refine (tokensOf_harmless n).after fun whole _ => (tokenAt_harmless _).after fun r _ => ?_
    refine (make_follows (by simp [identifierParts])).after fun metaName hm => ?_
    exact (child_follows hr n _).andThen fun property hp => finish_follows (by simp_all)

lemma heritageType_follows (type : NodeType) :
    Follows env ok (heritageType n type) (Needs.applied n) (Settled env.file) := by
  refine (child_follows hr n _).bind fun e he => ?_
  exact (typeArguments?_follows hr n).andThen fun args ha => finish_follows (by simp_all)

lemma instantiation_follows :
    Follows env ok (instantiation n) (Needs.applied n ++ Needs.fact (n.list? .typeArgument).isSome)
      (Settled env.file) := by
  unfold Needs.applied
  rw [List.append_assoc]
  refine (child_follows hr n _).bind fun e he => ?_
  refine (angleList?_follows hr n _ _).bind fun args ha => ?_
  rw [← ha.1]
  cases args with
  | none => exact .throw _
  | some args => exact finish_follows (by simp_all)

/-! ### Parameters and patterns -/

omit hr in
lemma declare_follows {m : EsNode} {type : Option EsNode} (question : Option Span)
    (h : Settled env.file m) (ht : ∀ c ∈ type, Settled env.file c) :
    Follows env ok (declare m type question) [] (Settled env.file) := by
  unfold declare
  extract_lets binds typed marked
  -- the type goes into the node, the question mark only changes the label
  have htyped : ∀ c ∈ typed.children, Settled env.file c := by
    unfold typed
    split
    · split
      · exact children_setSlot_settled (fun c => h.child) (by simpa using ht)
      · exact fun c => h.child
    · exact fun c => h.child
  have hlabel (f : Label → Label) (m : EsNode) : (m.mapLabel f).children = m.children := by
    cases m; rfl
  refine resettle_follows ?_
  unfold marked
  split
  · rw [hlabel]
    split
    · exact children_setSlot_settled htyped (by simp)
    · exact htyped
  · exact htyped

omit hr in
lemma decorate_follows {m : EsNode} {ds : List EsNode} (h : Settled env.file m)
    (hd : ∀ d ∈ ds, Settled env.file d) :
    Follows env ok (decorate m ds) [] (Settled env.file) :=
  .branch (.pure h) (resettle_follows (children_setSlot_settled (fun _ => h.child) hd))

lemma parameter_follows :
    Follows env ok (parameter n) (Needs.parameter n) (Settled env.file) := by
  unfold Needs.parameter
  rw [List.append_assoc]
  refine (child_follows hr n _).bind fun name hname => ?_
  refine (declaredType?_follows hr n).bind fun type ht => .ofRead ?_
  extract_lets question isProperty rest
  have hrest (result : EsNode) (h : Settled env.file result) :
      Follows env ok (rest result) [] (Settled env.file) := by
    refine .branch (finish_follows ?_) (.pure h)
    simpa [accessibility] using h
  refine .ite (fun _ => ?_) fun _ => ?_
  · refine (finish_follows (by simpa [restParts] using hname)).after fun whole hw => ?_
    exact (declare_follows _ hw ht).after hrest
  · rw [Needs.may_eq]
    refine .ite (fun _ => ?_) fun _ => (declare_follows _ hname ht).after hrest
    refine (declare_follows _ hname ht).after fun left hl => ?_
    refine (child_follows hr n _).andThen fun right hright => ?_
    refine (finish_follows (by simp [assignmentParts, hl, hright])).after fun whole hw => ?_
    exact .branch ((restart_follows _ hw).after hrest) (hrest _ hw)

lemma parameters_follows :
    Follows env ok (parameters n)
      ((n.partsOf .parameter).flatMap fun m => some ⟨n.kind, m⟩ :: Needs.decorators m)
      (fun cs => ∀ c ∈ cs, Settled env.file c) := by
  refine (Follows.mapM (n.partsOf .parameter) fun m _ => ?_).weaken fun _ h => h.2
  refine Follows.bind (convertPart_follows hr n m false) fun converted hc => ?_
  exact (decorators_follows hr m).andThen fun ds hd => decorate_follows hc hd

lemma objectBindingPattern_follows :
    Follows env ok (objectBindingPattern n) (Needs.all n .element) (Settled env.file) :=
  (children_follows hr n _).andThen fun _ hp => finish_follows (by simpa using hp)

lemma arrayBindingPattern_follows :
    Follows env ok (arrayBindingPattern n) (Needs.filled n) (Settled env.file) :=
  (childrenOrHoles_follows hr n _).andThen fun _ he => finish_follows (by simpa using he)

lemma arrayBinding_follows :
    Follows env ok (arrayBinding n) (Needs.must n .name ++ Needs.may n .initializer)
      (Settled env.file) := by
  refine (child_follows hr n _).bind fun item hi => ?_
  rw [Needs.may_eq]
  refine .ite (fun _ => ?_) fun _ => ?_
  · refine (child_follows hr n _).andThen fun right hright => finish_follows ?_
    simp [assignmentParts, hi, hright]
  · exact .branch (finish_follows (by simpa [restParts] using hi)) (.pure hi)

lemma objectBinding_follows :
    Follows env ok (objectBinding n)
      (if (n.part? .dots).isSome then Needs.must n (Needs.keyRole n)
        else Needs.must n (Needs.keyRole n) ++ Needs.must n .name ++ Needs.may n .initializer)
      (Settled env.file) := by
  unfold objectBinding
  refine .ite (fun _ => ?_) fun _ => ?_
  · exact (child_follows hr n _).andThen fun argument ha =>
      finish_follows (by simpa [restParts] using ha)
  · rw [List.append_assoc]
    refine (child_follows hr n _).bind fun key hk => ?_
    have done (value : EsNode) (hv : Settled env.file value) :
        Follows env ok (finish n .property
          (propertyParts (isComputed n .propertyName) key "init" false false
            (n.part? .propertyName).isNone value)) [] (Settled env.file) :=
      finish_follows (by simp [propertyParts, isComputed, hk, hv])
    rw [Needs.may_eq]
    split
    · unfold require Needs.must
      cases n.part? .name with
      | none => exact (Follows.abort (.throw _)).congr (by simp)
      | some m =>
        simp only [pure_bind, Option.map_some]
        refine (convertPart_follows hr n m _).bind fun left hl => ?_
        refine (child_follows hr n _).andThen fun right hright => .ofRead ?_
        exact (make_follows (by simp [assignmentParts, hl, hright])).after done
    · simpa using (child_follows hr n _).andThen done

lemma bindingElement_follows {k : NodeKind} (hk : env.place.parent = some k) :
    Follows env ok (bindingElement n) (Needs.bindingElement k n) (Settled env.file) := by
  refine .ofRead ?_
  unfold Needs.bindingElement
  simp only [hk, beq_iff_eq, Option.some.injEq]
  exact .ite (fun _ => arrayBinding_follows hr n) fun _ => objectBinding_follows hr n

/-! ### Elements -/

omit hr in
lemma jsxIdentifier_follows : Follows env ok (jsxIdentifier n) [] (Settled env.file) :=
  (tokensOf_harmless n).after fun _ _ => (sourceOf_harmless _).after fun _ _ =>
    finish_follows (by simp)

omit hr in
lemma jsxName_follows : Follows env ok (jsxName n) (Needs.jsxName n) (Settled env.file) := by
  unfold jsxName Needs.jsxName
  refine .ite (fun _ => ?_) fun _ => jsxIdentifier_follows n
  refine (require_follows n _).bind fun m _ => ?_
  refine (jsxIdentifier_follows m).after fun namespaceName hn => ?_
  refine (require_follows n _).andThen fun m _ => ?_
  exact (jsxIdentifier_follows m).after fun name hname => finish_follows (by simp [hn, hname])

omit hr in
lemma jsxTagName_follows : Follows env ok (jsxTagName n) (Needs.tagName n) (Settled env.file) := by
  induction n using Needs.tagName.induct with
  | case1 label object property hk ih =>
    unfold jsxTagName Needs.tagName
    simp only [hk]
    refine ih.andThen fun object ho => (jsxIdentifier_follows property).after fun property hp => ?_
    exact finish_follows (by simp [ho, hp])
  | case2 label parts h =>
    have hname : jsxTagName (.node label parts) = jsxName (.node label parts) := by
      unfold jsxTagName
      split
      · exact (h _ _ ‹_› rfl).elim
      · rfl
    have hneeds : Needs.tagName (.node label parts) = Needs.jsxName (.node label parts) := by
      unfold Needs.tagName
      split
      · exact (h _ _ ‹_› rfl).elim
      · rfl
    rw [hname, hneeds]
    exact jsxName_follows _

lemma openingElement_follows (native : Option Node) (r : Span) (selfClosing : Bool) :
    Follows env ok (openingElement native n r selfClosing) (Needs.openingElement n)
      (Settled env.file) := by
  refine Follows.congr
    (within_follows n .tagName fun m => (jsxTagName_follows m).bind fun name hname =>
      show Follows env ok _ (Needs.listed n .typeArgument ++ Needs.attributes n) (Settled env.file)
        from ?_) ?_
  · refine (typeArguments?_follows hr n).bind fun args ha => ?_
    unfold Needs.attributes Needs.inside
    cases n.part? .attributes with
    | some list =>
      exact (children_follows hr list _).andThen fun cs hc => make_follows (by simp_all)
    | none => exact make_follows (by simp_all)
  · unfold Needs.openingElement Needs.within
    cases n.part? .tagName <;> simp

lemma jsxOpening_follows :
    Follows env ok (jsxOpening n) (Needs.openingElement n) (Settled env.file) :=
  (tokensOf_harmless n).after fun _ _ => openingElement_follows hr n _ _ _

lemma jsxSelfClosing_follows :
    Follows env ok (jsxSelfClosing n) (Needs.openingElement n) (Settled env.file) := by
  refine (tokensOf_harmless n).after fun r _ => ?_
  exact (openingElement_follows hr n _ _ _).andThen fun _ ho => finish_follows (by simpa using ho)

omit hr in
lemma jsxClosing_follows :
    Follows env ok (jsxClosing n) (Needs.within n .tagName Needs.tagName) (Settled env.file) :=
  within_follows n _ fun m => (jsxTagName_follows m).andThen fun _ hname =>
    finish_follows (by simpa using hname)

lemma jsxElement_follows :
    Follows env ok (jsxElement n)
      (Needs.must n .opening ++ (Needs.all n .child ++ Needs.may n .closing))
      (Settled env.file) := by
  refine (child_follows hr n _).bind fun opening ho => ?_
  refine (children_follows hr n _).bind fun inside hi => ?_
  exact (child?_follows hr n _).andThen fun closing hc => finish_follows (by simp_all)

lemma jsxFragment_follows :
    Follows env ok (jsxFragment n)
      (Needs.must n .opening ++ (Needs.all n .child ++ Needs.must n .closing))
      (Settled env.file) := by
  refine (child_follows hr n _).bind fun opening ho => ?_
  refine (children_follows hr n _).bind fun inside hi => ?_
  exact (child_follows hr n _).andThen fun closing hc => finish_follows (by simp_all)

lemma jsxAttribute_follows :
    Follows env ok (jsxAttribute n)
      (Needs.within n .name Needs.jsxName ++ Needs.may n .initializer) (Settled env.file) := by
  refine Follows.congr (within_follows n .name fun m => (jsxName_follows m).bind fun name hname =>
    (child?_follows hr n .initializer).andThen fun value hv => finish_follows ?_) ?_
  · simp_all
  · unfold Needs.within
    cases n.part? .name <;> simp

lemma jsxExpression_follows :
    Follows env ok (jsxExpression n) (Needs.may n .expression) (Settled env.file) := by
  unfold jsxExpression
  extract_lets type rest
  have hrest (e : EsNode) (h : Settled env.file e) :
      Follows env ok (rest e) [] (Settled env.file) := finish_follows (by simpa using h)
  rw [Needs.may_eq]
  refine .ite (fun _ => (child_follows hr n _).andThen hrest) fun _ => ?_
  exact (tokensOf_harmless n).after fun r _ => (make_follows (by simp)).after hrest

end EstreeLint.Estree.Convert
