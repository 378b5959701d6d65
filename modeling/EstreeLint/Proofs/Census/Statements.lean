import EstreeLint.Proofs.Census.Members
import EstreeLint.Proofs.Estree.Statements

/-!
The rules for statements spend what they convert, and so does the conversion of every node.
-/

namespace EstreeLint.Estree

namespace Convert

variable {env : Env} (hr : Counts env) {n : Node} (hs : SitedIn env.file n)

include hr hs

/-! ### Statements -/

lemma block_spends : Spends env 0 (block n) (Proper env.file) :=
  .ofRead ((body_spends hr hs _ _).bind fun _ hb => finish_spends hs (by simpa using hb)
    (.plain rfl) (by simp))

lemma optionalExpression_spends (type : NodeType) (f : Field) (r : Role)
    (htype : soleField? type = none) :
    Spends env 0 (optionalExpression n type f r) (Proper env.file) :=
  (child?_spends hr hs _).bind fun _ he => finish_spends hs (by simpa using he) (.plain htype)
    (by simp)

lemma ifStatement_spends : Spends env 0 (ifStatement n) (Proper env.file) := by
  refine (child_spends hr hs _).bind fun test ht => ?_
  refine (child_spends hr hs _).bind fun consequent hc => ?_
  exact (child?_spends hr hs _).bind fun alternate ha => finish_spends hs (by simp_all)
    (.plain rfl) (by simp)

lemma doStatement_spends : Spends env 0 (doStatement n) (Proper env.file) := by
  refine (child_spends hr hs _).bind fun body hb => ?_
  exact (child_spends hr hs _).bind fun test ht => finish_spends hs (by simp_all)
    (.plain rfl) (by simp [add_comm])

lemma whileStatement_spends : Spends env 0 (whileStatement n) (Proper env.file) := by
  refine (child_spends hr hs _).bind fun test ht => ?_
  exact (child_spends hr hs _).bind fun body hb => finish_spends hs (by simp_all)
    (.plain rfl) (by simp)

lemma forStatement_spends : Spends env 0 (forStatement n) (Proper env.file) := by
  refine (child?_spends hr hs _).bind fun init hi => ?_
  refine (child?_spends hr hs _).bind fun test ht => ?_
  refine (child?_spends hr hs _).bind fun update hu => ?_
  exact (child_spends hr hs _).bind fun body hb => finish_spends hs (by simp_all)
    (.plain rfl) (by simp [add_comm, add_assoc])

lemma forEachStatement_spends : Spends env 0 (forEachStatement n) (Proper env.file) := by
  refine (target_spends hr hs _).bind fun left hl => ?_
  refine (child_spends hr hs _).bind fun right hright => ?_
  refine (child_spends hr hs _).bind fun body hb => ?_
  refine .branch (finish_spends hs ?_ (.plain rfl) (by simp [add_comm])) (finish_spends hs ?_
    (.plain rfl) (by simp [add_comm])) <;> simp [hl, hright, hb]

lemma withStatement_spends : Spends env 0 (withStatement n) (Proper env.file) := by
  refine (child_spends hr hs _).bind fun object ho => ?_
  exact (child_spends hr hs _).bind fun body hb => finish_spends hs (by simp_all)
    (.plain rfl) (by simp)

lemma labeledStatement_spends : Spends env 0 (labeledStatement n) (Proper env.file) := by
  refine (child_spends hr hs _).bind fun label hl => ?_
  exact (child_spends hr hs _).bind fun body hb => finish_spends hs (by simp_all)
    (.plain rfl) (by simp)

lemma switchStatement_spends : Spends env 0 (switchStatement n) (Proper env.file) := by
  refine (child_spends hr hs _).bind fun discriminant hd => require_spends fun m hm => ?_
  exact (children_spends hr (hs.of_part? hm) _).bind fun cases hc => finish_spends hs (by simp_all)
    (.plain rfl) (by simp)

lemma caseClause_spends : Spends env 0 (caseClause n) (Proper env.file) := by
  refine (child?_spends hr hs _).bind fun test ht => ?_
  exact (children_spends hr hs _).bind fun consequent hc => finish_spends hs (by simp_all)
    (.plain rfl) (by simp)

lemma tryStatement_spends : Spends env 0 (tryStatement n) (Proper env.file) := by
  refine (child_spends hr hs _).bind fun block hb => ?_
  refine (child?_spends hr hs _).bind fun handler hh => ?_
  exact (child?_spends hr hs _).bind fun finalizer hf => finish_spends hs (by simp_all)
    (.plain rfl) (by simp [add_comm, add_assoc])

lemma boundName_spends (hk : n.isForm .variableDeclaration = true) :
    Spends env 0 (boundName n) (Proper env.file) := by
  refine (name_spends hr hs true (.inr hk)).bind fun id hid => ?_
  refine (declaredType?_spends hr hs).bind fun type ht => ?_
  rw [add_zero, add_comm]
  exact (declare_spends hid.1 hid.2 ht (by simp)).weaken fun _ h => h.1

lemma catchClause_spends : Spends env 0 (catchClause n) (Proper env.file) := by
  have hbound (v : Node) (hv : n.part? .variableDeclaration = some v) :
      Spends env 0 (boundName v) (Proper env.file) :=
    boundName_spends hr (hs.of_part? hv) (hs.role hv)
  refine (Spends.mapM? _ hbound).bind fun param hp => ?_
  exact (child_spends hr hs _).bind fun body hb => finish_spends hs (by simp_all)
    (.plain rfl) (by simp)

lemma variableStatement_spends : Spends env 0 (variableStatement n) (Proper env.file) := by
  refine require_spends fun m hm => (children_spends hr (hs.of_part? hm) _).bind fun ds hd => ?_
  exact exported_spends hs (finish_spends hs (by simpa [declarationParts] using hd)
    (.plain rfl) (by simp))

lemma variableDeclarationList_spends :
    Spends env 0 (variableDeclarationList n) (Proper env.file) :=
  (children_spends hr hs _).bind fun _ hd => finish_spends hs (by simpa [declarationParts] using hd)
    (.plain rfl) (by simp)

lemma variableDeclarator_spends (hk : n.isForm .variableDeclaration = true) :
    Spends env 0 (variableDeclarator n) (Proper env.file) := by
  refine (boundName_spends hr hs hk).bind fun id hid => ?_
  exact (child?_spends hr hs _).bind fun init hi => finish_spends hs (by simp_all)
    (.plain rfl) (by simp [add_comm])

/-! ### All nodes -/

lemma ruleFor_proper {f : Form} (hf : n.kind = .form f) :
    Spends env 0 (ruleFor n f) (Proper env.file) := by
  cases f
  case arrayLiteralExpression => exact arrayLiteral_spends hr hs
  case objectLiteralExpression => exact objectLiteral_spends hr hs
  case propertyAssignment => exact propertyAssignment_spends hr hs
  case shorthandPropertyAssignment => exact shorthandProperty_spends hr hs
  case spreadAssignment | spreadElement => exact spread_spends hr hs
  case propertyAccessExpression | elementAccessExpression => exact memberExpression_spends hr hs
  case callExpression => exact callExpression_spends hr hs
  case newExpression => exact newExpression_spends hr hs
  case taggedTemplateExpression => exact taggedTemplate_spends hr hs
  case templateExpression => exact templateExpression_spends hr hs
  case parenthesizedExpression | computedPropertyName | parenthesizedType =>
    exact child_spends hr hs _
  case functionExpression => exact functionExpression_spends hr hs
  case arrowFunction => exact arrowFunction_spends hr hs
  case deleteExpression | typeOfExpression | voidExpression => exact wordOperator_spends hr hs _
  case awaitExpression | decorator | expressionStatement | throwStatement
    | externalModuleReference | jsxSpreadAttribute =>
    exact wrappedExpression_spends hr hs _ _ (by simp [soleField?])
  case prefixUnaryExpression | postfixUnaryExpression => exact unaryExpression_spends hr hs
  case binaryExpression => exact binaryExpression_spends hr hs
  case conditionalExpression => exact conditionalExpression_spends hr hs
  case yieldExpression => exact yieldExpression_spends hr hs
  case classExpression => exact classLike_spends hr hs _ (by simp [hf]) rfl
  case expressionWithTypeArguments => exact instantiation_spends hr hs
  case asExpression | satisfiesExpression | typeAssertionExpression =>
    exact typedExpression_spends hr hs _ rfl
  case nonNullExpression => exact nonNull_spends hr hs
  case metaProperty => exact metaProperty_spends hr hs
  case objectBindingPattern => exact (objectBindingPattern_spends hr hs).weaken fun _ h => h.1
  case arrayBindingPattern => exact (arrayBindingPattern_spends hr hs).weaken fun _ h => h.1
  case bindingElement => exact bindingElement_spends hr hs
  case parameter =>
    exact (parameter_spends hr hs (by simp [Tree.isForm, hf])).weaken fun _ h => h.1
  case block => exact block_spends hr hs
  case emptyStatement | debuggerStatement | thisType | jsxOpeningFragment
    | jsxClosingFragment => exact finish_spends hs (by simp) (.plain rfl) (by simp)
  case ifStatement => exact ifStatement_spends hr hs
  case doStatement => exact doStatement_spends hr hs
  case whileStatement => exact whileStatement_spends hr hs
  case forStatement => exact forStatement_spends hr hs
  case forInStatement | forOfStatement => exact forEachStatement_spends hr hs
  case continueStatement | breakStatement | returnStatement =>
    exact optionalExpression_spends hr hs _ _ _ rfl
  case withStatement => exact withStatement_spends hr hs
  case labeledStatement => exact labeledStatement_spends hr hs
  case switchStatement => exact switchStatement_spends hr hs
  case caseClause | defaultClause => exact caseClause_spends hr hs
  case tryStatement => exact tryStatement_spends hr hs
  case catchClause => exact catchClause_spends hr hs
  case variableStatement => exact variableStatement_spends hr hs
  case variableDeclarationList => exact variableDeclarationList_spends hr hs
  case variableDeclaration => exact variableDeclarator_spends hr hs (by simp [Tree.isForm, hf])
  case functionDeclaration => exact functionDeclaration_spends hr hs
  case classDeclaration => exact classDeclaration_spends hr hs (by simp [hf])
  case propertyDeclaration => exact propertyDeclaration_spends hr hs
  case methodDeclaration | getAccessor | setAccessor => exact method_spends hr hs (by simp [hf])
  case constructor => exact constructorMember_spends hr hs (by simp [hf])
  case classStaticBlockDeclaration => exact staticBlock_spends hr hs
  case propertySignature => exact propertySignature_spends hr hs
  case methodSignature => exact methodSignature_spends hr hs
  case indexSignature => exact indexSignature_spends hr hs
  case callSignature | constructSignature => exact callSignature_spends hr hs _ rfl
  case interfaceDeclaration => exact interfaceDeclaration_spends hr hs (by simp [hf])
  case typeAliasDeclaration => exact typeAlias_spends hr hs
  case enumDeclaration => exact enumDeclaration_spends hr hs (by simp [hf])
  case enumMember => exact enumMember_spends hr hs
  case moduleDeclaration => exact moduleDeclaration_spends hr hs
  case moduleBlock => exact moduleBlock_spends hr hs
  case importDeclaration => exact importDeclaration_spends hr hs
  case importClause => exact importDefault_spends hr hs
  case namespaceImport => exact namespaceImport_spends hr hs
  case importSpecifier => exact importSpecifier_spends hr hs
  case importAttribute => exact importAttribute_spends hr hs
  case importAttributes => exact attributesObject_spends hr hs
  case importEqualsDeclaration => exact importEquals_spends hr hs
  case exportDeclaration => exact exportDeclaration_spends hr hs
  case exportSpecifier => exact exportSpecifier_spends hr hs
  case exportAssignment => exact exportAssignment_spends hr hs
  case namespaceExportDeclaration => exact namespaceExport_spends hr hs
  case qualifiedName => exact qualifiedName_spends hr hs
  case typeParameter => exact typeParameter_spends hr hs
  case typeReference => exact typeReference_spends hr hs
  case typePredicate => exact typePredicate_spends hr hs
  case functionType | constructorType => exact functionType_spends hr hs
  case typeQuery => exact typeQuery_spends hr hs
  case typeLiteral | tupleType | unionType | intersectionType =>
    exact listedTypes_spends hr hs _ _ rfl
  case arrayType | optionalType | restType | inferType => exact wrappedType_spends hr hs _ _ rfl
  case conditionalType => exact conditionalType_spends hr hs
  case typeOperator => exact typeOperator_spends hr hs
  case indexedAccessType => exact indexedAccessType_spends hr hs
  case mappedType => exact mappedType_spends hr hs
  case literalType => exact literalType_spends hr hs
  case namedTupleMember => exact namedTupleMember_spends hr hs
  case templateLiteralType => exact templateLiteralType_spends hr hs
  case importType => exact importType_spends hr hs
  case jsxElement => exact jsxElement_spends hr hs
  case jsxSelfClosingElement => exact jsxSelfClosing_spends hr hs
  case jsxOpeningElement => exact jsxOpening_spends hr hs
  case jsxClosingElement => exact jsxClosing_spends hs
  case jsxFragment => exact jsxFragment_spends hr hs
  case jsxAttribute => exact jsxAttribute_spends hr hs
  case jsxExpression => exact jsxExpression_spends hr hs hf
  case jsxNamespacedName => exact jsxName_spends hs
  all_goals exact .throw _

lemma ruleFor_spends {f : Form} (hf : n.kind = .form f) :
    Spends env 0 (ruleFor n f) (Outcome env.file env.place n) := by
  by_cases hp : f = .parameter
  · subst hp
    have hk : n.isForm .parameter = true := by simp [Tree.isForm, hf]
    refine (parameter_spends hr hs hk).weaken fun a h => ⟨h.1, fun hb => ?_, fun _ => h.2⟩
    simp [Grammar.Binds, hf] at hb
  have hparameter : n.isForm .parameter = false := by simpa [Tree.isForm, hf] using hp
  have binding {a : EsNode} (h : Proper env.file a ∧ Bindable a) :
      Outcome env.file env.place n a :=
    ⟨h.1, fun _ _ => h.2, fun hp => by rw [hparameter] at hp; cases hp⟩
  by_cases ho : f = .objectBindingPattern
  · subst ho
    exact (objectBindingPattern_spends hr hs).weaken fun _ => binding
  by_cases ha : f = .arrayBindingPattern
  · subst ha
    exact (arrayBindingPattern_spends hr hs).weaken fun _ => binding
  refine (ruleFor_proper hr hs hf).weaken fun a h => .plain h ?_ hparameter
  simp [Grammar.Binds, hf, ho, ha]

/-- **The rule for a node is accounted for**, and what it gives is as the rules above expect it of
names, patterns and parameters. -/
theorem byRule_spends : Spends env 0 (byRule n) (Outcome env.file env.place n) := by
  unfold byRule
  split
  · next k hk =>
    have hparameter : n.isForm .parameter = false := by simp [Tree.isForm, hk]
    by_cases hbinds : k = .identifier ∧ env.place.inQuery = false
    · obtain ⟨rfl, hquery⟩ := hbinds
      refine (identifier_bindable hs hquery).weaken fun a h => ⟨h.1, fun _ _ => h.2, fun hp => ?_⟩
      rw [hparameter] at hp
      cases hp
    · refine (token_spends hs k).weaken fun a h => ⟨h, fun hb hq => ?_, fun hp => ?_⟩
      · exact absurd ⟨by simpa [Grammar.Binds, hk] using hb, hq⟩ hbinds
      · rw [hparameter] at hp
        cases hp
  · next f hf => exact ruleFor_spends hr hs hf

end Convert

/-- **The conversion of an anchored node is accounted for.** -/
theorem counts_node (file : SourceFile) (depth : Nat) (above : Place) :
    Counts { file, place := above, recur := Convert.node file depth } := by
  induction depth generalizing above with
  | zero => exact fun place n _ => ⟨fun _ _ _ _ _ ha => nomatch ha⟩
  | succ depth ih =>
    intro place n hs
    -- the node's own rule runs at its place, one level further down
    exact ⟨(Convert.byRule_spends (ih place) hs).gives⟩

lemma program_spends {env : Env} (hr : Counts env) {n : Node} (hs : SitedIn env.file n) :
    Spends env 0 (Convert.program n)
      (fun a => Proper env.file a ∧ a.type = .program) := by
  refine (Convert.body_spends hr hs _ _).bind fun statements hb => .ofRead ?_
  refine Convert.make_spends_as (by simp) fun l ht hl => ⟨?_, ht⟩
  refine proper_node ?_ (.between hs.start hs.stop) hl (.plain (by rw [ht]; rfl))
  change PartsHold _ _
  simpa using hb

/-- **A converted file is accounted for.** -/
theorem accounted_ofFile {file : SourceFile} {c : Conversion} (hs : SitedIn file file.root)
    (h : Conversion.ofFile file = .ok c) :
    Accounted c.registry (ids c.program) ∧ Proper file c.program ∧ c.program.type = .program := by
  rw [ofFile_eq] at h
  cases hrun : Convert.program file.root (fileEnv file) {} with
  | error e =>
    rw [hrun] at h
    cases h
  | ok p =>
    rw [hrun] at h
    cases h
    have hprogram := (program_spends (counts_node file file.root.height {}) hs).gives 0
      (by simpa using Accounted.empty) hrun
    simpa using hprogram

end EstreeLint.Estree
