import EstreeLint.Proofs.Estree.Declarations

/-!
The rules for statements follow their needs, and so does the conversion of every node. So the nodes
of a converted file stand where they belong.
-/

namespace EstreeLint.Estree

namespace Convert

variable {env : Env} {ok : Site → Prop} (hr : Recurs env ok) (n : Node)

include hr

/-! ### Statements -/

lemma block_follows : Follows env ok (block n) (Needs.all n .element) (Settled env.file) :=
  .ofRead ((body_follows hr n _ _).andThen fun _ hs => finish_follows (by simpa using hs))

lemma optionalExpression_follows (type : NodeType) (f : Field) (r : Role) :
    Follows env ok (optionalExpression n type f r) (Needs.may n r) (Settled env.file) :=
  (child?_follows hr n _).andThen fun _ he => finish_follows (by simpa using he)

lemma ifStatement_follows :
    Follows env ok (ifStatement n)
      (Needs.must n .condition ++ (Needs.must n .thenStatement ++ Needs.may n .elseStatement))
      (Settled env.file) := by
  refine (child_follows hr n _).bind fun test ht => ?_
  refine (child_follows hr n _).bind fun consequent hc => ?_
  exact (child?_follows hr n _).andThen fun alternate ha => finish_follows (by simp_all)

lemma doStatement_follows :
    Follows env ok (doStatement n) (Needs.must n .statement ++ Needs.must n .condition)
      (Settled env.file) := by
  refine (child_follows hr n _).bind fun body hb => ?_
  exact (child_follows hr n _).andThen fun test ht => finish_follows (by simp_all)

lemma whileStatement_follows :
    Follows env ok (whileStatement n) (Needs.must n .condition ++ Needs.must n .statement)
      (Settled env.file) := by
  refine (child_follows hr n _).bind fun test ht => ?_
  exact (child_follows hr n _).andThen fun body hb => finish_follows (by simp_all)

lemma forStatement_follows :
    Follows env ok (forStatement n)
      (Needs.may n .initializer ++ (Needs.may n .condition ++ (Needs.may n .incrementor ++
        Needs.must n .statement))) (Settled env.file) := by
  refine (child?_follows hr n _).bind fun init hi => ?_
  refine (child?_follows hr n _).bind fun test ht => ?_
  refine (child?_follows hr n _).bind fun update hu => ?_
  exact (child_follows hr n _).andThen fun body hb => finish_follows (by simp_all)

lemma forEachStatement_follows :
    Follows env ok (forEachStatement n)
      (Needs.must n .initializer ++ (Needs.must n .expression ++ Needs.must n .statement))
      (Settled env.file) := by
  refine (target_follows hr n _).bind fun left hl => ?_
  refine (child_follows hr n _).bind fun right hright => ?_
  refine (child_follows hr n _).andThen fun body hb => ?_
  refine .branch (finish_follows ?_) (finish_follows ?_) <;> simp [hl, hright, hb]

lemma withStatement_follows :
    Follows env ok (withStatement n) (Needs.must n .head ++ Needs.must n .statement)
      (Settled env.file) := by
  refine (child_follows hr n _).bind fun object ho => ?_
  exact (child_follows hr n _).andThen fun body hb => finish_follows (by simp_all)

lemma labeledStatement_follows :
    Follows env ok (labeledStatement n) (Needs.must n .label ++ Needs.must n .statement)
      (Settled env.file) := by
  refine (child_follows hr n _).bind fun label hl => ?_
  exact (child_follows hr n _).andThen fun body hb => finish_follows (by simp_all)

lemma switchStatement_follows :
    Follows env ok (switchStatement n)
      (Needs.must n .expression ++ Needs.within n .caseBlock (Needs.all · .element))
      (Settled env.file) := by
  refine (child_follows hr n _).bind fun discriminant hd => within_follows n _ fun m => ?_
  exact (children_follows hr m _).andThen fun cases hc => finish_follows (by simp_all)

lemma caseClause_follows :
    Follows env ok (caseClause n) (Needs.may n .expression ++ Needs.all n .statement)
      (Settled env.file) := by
  refine (child?_follows hr n _).bind fun test ht => ?_
  exact (children_follows hr n _).andThen fun consequent hc => finish_follows (by simp_all)

lemma tryStatement_follows :
    Follows env ok (tryStatement n)
      (Needs.must n .tryBlock ++ (Needs.may n .catchClause ++ Needs.may n .finallyBlock))
      (Settled env.file) := by
  refine (child_follows hr n _).bind fun block hb => ?_
  refine (child?_follows hr n _).bind fun handler hh => ?_
  exact (child?_follows hr n _).andThen fun finalizer hf => finish_follows (by simp_all)

lemma boundName_follows :
    Follows env ok (boundName n) (Needs.must n .name ++ Needs.may n .declaredType)
      (Settled env.file) := by
  refine (target_follows hr n _).bind fun id hid => ?_
  exact (declaredType?_follows hr n).andThen fun type ht => declare_follows none hid ht

lemma catchClause_follows :
    Follows env ok (catchClause n)
      (Needs.inside n .variableDeclaration
        (fun v => Needs.must v .name ++ Needs.may v .declaredType)
        ++ Needs.must n .block) (Settled env.file) := by
  refine Follows.bind (Follows.mapM? _ fun v _ => boundName_follows hr v) fun param hp => ?_
  exact (child_follows hr n _).andThen fun body hb => finish_follows (by simp_all)

lemma variableStatement_follows :
    Follows env ok (variableStatement n) (Needs.within n .declarationList (Needs.all · .element))
      (Settled env.file) := by
  refine within_follows n _ fun m => (children_follows hr m _).andThen fun declarations hd => ?_
  refine (finish_follows ?_).after fun _ hd => wrapExport_follows n hd
  simpa [declarationParts] using hd

lemma variableDeclarationList_follows :
    Follows env ok (variableDeclarationList n) (Needs.all n .element) (Settled env.file) :=
  (children_follows hr n _).andThen fun _ hd =>
    finish_follows (by simpa [declarationParts] using hd)

lemma variableDeclarator_follows :
    Follows env ok (variableDeclarator n)
      (Needs.must n .name ++ Needs.may n .declaredType ++ Needs.may n .initializer)
      (Settled env.file) := by
  refine (boundName_follows hr n).bind fun id hid => ?_
  exact (child?_follows hr n _).andThen fun init hi => finish_follows (by simp_all)

/-! ### All nodes -/

/-- **Every rule follows the needs of its form.** -/
theorem ruleFor_follows {k : NodeKind} (hk : env.place.parent = some k) {f : Form}
    (hf : n.kind = .form f) :
    Follows env ok (ruleFor n f) (formNeeds k n f) (Settled env.file) := by
  cases f
  case arrayLiteralExpression => exact arrayLiteral_follows hr n
  case objectLiteralExpression => exact objectLiteral_follows hr n
  case propertyAssignment => exact propertyAssignment_follows hr n
  case shorthandPropertyAssignment => exact shorthandProperty_follows hr n
  case spreadAssignment | spreadElement => exact spread_follows hr n
  case propertyAccessExpression | elementAccessExpression =>
    have h := memberExpression_follows hr n
    simp only [Tree.isForm, hf] at h
    exact h
  case callExpression => exact callExpression_follows hr n
  case newExpression => exact newExpression_follows hr n
  case taggedTemplateExpression => exact taggedTemplate_follows hr n
  case templateExpression => exact templateExpression_follows hr n
  case parenthesizedExpression | computedPropertyName | parenthesizedType =>
    exact child_follows hr n _
  case functionExpression => exact functionExpression_follows hr n
  case arrowFunction => exact arrowFunction_follows hr n
  case deleteExpression | typeOfExpression | voidExpression => exact wordOperator_follows hr n _
  case awaitExpression | decorator | expressionStatement | throwStatement
    | externalModuleReference | jsxSpreadAttribute => exact wrappedExpression_follows hr n _ _
  case prefixUnaryExpression | postfixUnaryExpression => exact unaryExpression_follows hr n
  case binaryExpression => exact binaryExpression_follows hr n
  case conditionalExpression => exact conditionalExpression_follows hr n
  case yieldExpression => exact yieldExpression_follows hr n
  case classExpression => exact classLike_follows hr n _
  case expressionWithTypeArguments => exact instantiation_follows hr n
  case asExpression | satisfiesExpression | typeAssertionExpression =>
    exact typedExpression_follows hr n _
  case nonNullExpression => exact nonNull_follows hr n
  case metaProperty => exact metaProperty_follows hr n
  case objectBindingPattern => exact objectBindingPattern_follows hr n
  case arrayBindingPattern => exact arrayBindingPattern_follows hr n
  case bindingElement => exact bindingElement_follows hr n hk
  case parameter => exact parameter_follows hr n
  case block => exact block_follows hr n
  case emptyStatement | debuggerStatement | thisType | jsxOpeningFragment
    | jsxClosingFragment => exact finish_follows (by simp)
  case ifStatement => exact ifStatement_follows hr n
  case doStatement => exact doStatement_follows hr n
  case whileStatement => exact whileStatement_follows hr n
  case forStatement => exact forStatement_follows hr n
  case forInStatement | forOfStatement => exact forEachStatement_follows hr n
  case continueStatement | breakStatement | returnStatement =>
    exact optionalExpression_follows hr n _ _ _
  case withStatement => exact withStatement_follows hr n
  case labeledStatement => exact labeledStatement_follows hr n
  case switchStatement => exact switchStatement_follows hr n
  case caseClause | defaultClause => exact caseClause_follows hr n
  case tryStatement => exact tryStatement_follows hr n
  case catchClause => exact catchClause_follows hr n
  case variableStatement => exact variableStatement_follows hr n
  case variableDeclarationList => exact variableDeclarationList_follows hr n
  case variableDeclaration => exact variableDeclarator_follows hr n
  case functionDeclaration => exact functionDeclaration_follows hr n
  case classDeclaration => exact classDeclaration_follows hr n
  case propertyDeclaration => exact propertyDeclaration_follows hr n
  case methodDeclaration | getAccessor | setAccessor => exact method_follows hr n hk
  case constructor => exact constructorMember_follows hr n
  case classStaticBlockDeclaration => exact staticBlock_follows hr n
  case propertySignature => exact propertySignature_follows hr n
  case methodSignature => exact methodSignature_follows hr n
  case indexSignature => exact indexSignature_follows hr n
  case callSignature | constructSignature => exact callSignature_follows hr n _
  case interfaceDeclaration => exact interfaceDeclaration_follows hr n
  case typeAliasDeclaration => exact typeAlias_follows hr n
  case enumDeclaration => exact enumDeclaration_follows hr n
  case enumMember => exact enumMember_follows hr n
  case moduleDeclaration => exact moduleDeclaration_follows hr n
  case moduleBlock => exact moduleBlock_follows hr n
  case importDeclaration => exact importDeclaration_follows hr n
  case importClause => exact importDefault_follows hr n
  case namespaceImport => exact namespaceImport_follows hr n
  case importSpecifier => exact importSpecifier_follows hr n
  case importAttribute => exact importAttribute_follows hr n
  case importAttributes => exact attributesObject_follows hr n
  case importEqualsDeclaration => exact importEquals_follows hr n
  case exportDeclaration => exact exportDeclaration_follows hr n
  case exportSpecifier => exact exportSpecifier_follows hr n
  case exportAssignment => exact exportAssignment_follows hr n
  case namespaceExportDeclaration => exact namespaceExport_follows hr n
  case qualifiedName => exact qualifiedName_follows hr n
  case typeParameter => exact typeParameter_follows hr n
  case typeReference => exact typeReference_follows hr n
  case typePredicate => exact typePredicate_follows hr n
  case functionType | constructorType => exact functionType_follows hr n
  case typeQuery => exact typeQuery_follows hr n
  case typeLiteral | tupleType | unionType | intersectionType =>
    exact listedTypes_follows hr n _ _
  case arrayType | optionalType | restType | inferType => exact wrappedType_follows hr n _ _
  case conditionalType => exact conditionalType_follows hr n
  case typeOperator => exact typeOperator_follows hr n
  case indexedAccessType => exact indexedAccessType_follows hr n
  case mappedType => exact mappedType_follows hr n
  case literalType => exact literalType_follows hr n
  case namedTupleMember => exact namedTupleMember_follows hr n
  case templateLiteralType => exact templateLiteralType_follows hr n
  case importType => exact importType_follows hr n
  case jsxElement => exact jsxElement_follows hr n
  case jsxSelfClosingElement => exact jsxSelfClosing_follows hr n
  case jsxOpeningElement => exact jsxOpening_follows hr n
  case jsxClosingElement => exact jsxClosing_follows n
  case jsxFragment => exact jsxFragment_follows hr n
  case jsxAttribute => exact jsxAttribute_follows hr n
  case jsxExpression => exact jsxExpression_follows hr n
  case jsxNamespacedName => exact jsxName_follows n
  all_goals exact .throw _

lemma byRule_follows {k : NodeKind} (hk : env.place.parent = some k) :
    Follows env ok (byRule n) (needs ⟨k, n⟩) (Settled env.file) := by
  unfold byRule needs
  split
  · rename_i t ht
    simp only [ht]
    exact token_follows n t
  · rename_i f hf
    simp only [hf]
    exact ruleFor_follows hr n hk hf

end Convert

/-- A node of at most `depth` levels converts: its needs are met by nodes below it that do. -/
def Converts : Nat → Site → Prop
  | 0, _ => False
  | depth + 1, s => Met (Converts depth) (needs s)

/-- **The conversion of a node does not depend on the registry, and gives nodes that stand where
they say.** -/
theorem recurs_node (file : SourceFile) (depth : Nat) (above : Place) :
    Recurs { file, place := above, recur := Convert.node file depth } (Converts depth) := by
  induction depth generalizing above with
  | zero =>
    intro place n k _
    refine ⟨fun hm => ?_, fun _ _ => ⟨_, rfl⟩⟩
    simp [Converts] at hm
  | succ depth ih =>
    intro place n k hk
    -- the node's own rule runs at its place, one level further down
    have hn := Convert.byRule_follows (ih place) n hk
    have hm : Met (Converts (depth + 1)) [some ⟨k, n⟩] ↔ Met (Converts depth) (needs ⟨k, n⟩) := by
      simp [Converts]
    exact ⟨fun hok => hn.gives (hm.1 hok), fun hno => hn.fails fun hok => hno (hm.2 hok)⟩

lemma program_follows {env : Env} {ok : Site → Prop} (hr : Recurs env ok) (n : Node) :
    Follows env ok (Convert.program n) (Needs.all n .statement) (Settled env.file) :=
  (Convert.body_follows hr n _ _).andThen fun _ hs => .ofRead
    (Convert.make_follows (by simpa using hs))

/-- How the statements of a file are converted. -/
def fileEnv (file : SourceFile) : Env :=
  { file, place := {}, recur := Convert.node file file.root.height }

lemma ofFile_eq (file : SourceFile) :
    Conversion.ofFile file =
      (Convert.program file.root (fileEnv file) {}).map fun p => ⟨p.1, p.2⟩ := by
  change (Convert.program file.root (fileEnv file) {} >>=
    fun p => pure (Conversion.mk p.1 p.2)) = _
  cases Convert.program file.root (fileEnv file) {} <;> rfl

lemma program_follows_file (file : SourceFile) :
    Follows (fileEnv file) (Converts file.root.height) (Convert.program file.root)
      (Needs.all file.root .statement) (Settled file) :=
  program_follows (recurs_node file file.root.height {}) file.root

/-! ### The nodes of a file -/

lemma settled_ofFile {file : SourceFile} {c : Conversion} (h : Conversion.ofFile file = .ok c) :
    Settled file c.program := by
  rw [ofFile_eq] at h
  cases hrun : Convert.program file.root (fileEnv file) {} with
  | error e => rw [hrun] at h; cases h
  | ok p =>
    rw [hrun] at h
    cases h
    exact (program_follows_file file).result hrun

/-- Where an offset of a text is shown: its line, counted from 1, and the column in UTF-16 units. -/
def shownAt (text : Source) (offset : Nat) : LineColumn :=
  let p := (LineMap.build text).positionOf text offset
  ⟨p.line + 1, p.character⟩

/-- **Every node of a converted file has its children within it, and is shown where its range
starts and stops.** -/
theorem converted_nodes_in_place (name : String) (text : Source) (c : Conversion)
    (h : Conversion.ofFile (SourceFile.parse name text) = .ok c) :
    ∀ m ∈ c.program.nodes,
      m.range.start ≤ m.range.stop ∧
      (∀ child ∈ m.children,
        m.range.start ≤ child.range.start ∧ child.range.stop ≤ m.range.stop) ∧
      m.loc = ⟨shownAt text m.range.start, shownAt text m.range.stop⟩ := by
  intro m hm
  obtain ⟨covers, located⟩ := settled_ofFile h m hm
  exact ⟨m.range.ordered, fun child hc => (Span.contains_iff _ _).1 (covers child hc), located⟩

/-- A class with an exported name, a decorated method, a chain, a rest parameter and a directive,
and a sequence after a line break of two characters. -/
def exportedClass : Source :=
  ("export default class A<T> \x7b @d m?(x = a?.b.c, ...y) \x7b \"use x\" \x7d \x7d\r\n" ++
    "(a, b, c!)").toList

set_option maxRecDepth 10000 in
theorem exportedClass_in_place :
    ∃ c, Conversion.ofFile (SourceFile.parse "a.ts" exportedClass) = .ok c ∧
      ∀ m ∈ c.program.nodes,
        m.range.start ≤ m.range.stop ∧
        (∀ child ∈ m.children,
          m.range.start ≤ child.range.start ∧ child.range.stop ≤ m.range.stop) ∧
        m.loc = ⟨shownAt exportedClass m.range.start, shownAt exportedClass m.range.stop⟩ := by
  have hok : (Conversion.ofFile (SourceFile.parse "a.ts" exportedClass)).isOk = true := by
    decide +kernel
  obtain ⟨c, h⟩ := Conversion.exists_of_isOk hok
  exact ⟨c, h, converted_nodes_in_place _ _ c h⟩

end EstreeLint.Estree
