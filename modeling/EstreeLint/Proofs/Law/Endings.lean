import EstreeLint.Proofs.Law.Targets
import EstreeLint.Proofs.Precedence.Statements

/-!
What a rule ends in.

Nearly every rule ends in a node of a type that it names. Only the rule for a comma ends in a
sequence, and only what holds an expression, a type or a name hands on what its part has been
converted to.
-/

namespace EstreeLint.Estree

/-- Whatever the rule comes to, it is no sequence. -/
class NoSequence (p : Convert EsNode) : Prop where
  type_ne {env : Env} {r s : Registry} {a : EsNode} (h : p env r = .ok (a, s)) :
    a.type ≠ .sequenceExpression

/-- Types of node other than that of a sequence. -/
@[reducible] def isSingle : NodeType → Bool
  | .sequenceExpression => false
  | _ => true

instance {t t' : NodeType} {c : Prop} [Decidable c] [h : IsTrue (isSingle t)]
    [h' : IsTrue (isSingle t')] : IsTrue (isSingle (if c then t else t')) := by
  split
  · exact h
  · exact h'

lemma ne_of_isSingle {t : NodeType} (h : isSingle t = true) : t ≠ .sequenceExpression := by
  rintro rfl
  cases h

variable {α : Type} {n : Node} {t : NodeType} {f : Field} {r : Role}

namespace NoSequence

variable {p q : Convert EsNode}

instance (priority := high) {p : Convert α} {f : α → Convert EsNode} [hf : ∀ a, NoSequence (f a)] :
    NoSequence (p >>= f) where
  type_ne h := by
    obtain ⟨a, s, -, h⟩ := run_bind_eq_ok h
    exact (hf a).type_ne h

lemma after {p : Convert α} {f : α → Convert EsNode} (_ : ∀ a, NoSequence (f a)) :
    NoSequence (p >>= f) := inferInstance

/-- A last step that may leave what has been made as it is. -/
lemma keeping {f : EsNode → Convert EsNode} [hp : NoSequence p]
    (hf : ∀ a, f a = pure a ∨ NoSequence (f a)) : NoSequence (p >>= f) where
  type_ne h := by
    obtain ⟨a, s, ha, hb⟩ := run_bind_eq_ok h
    rcases hf a with hsame | hf
    · rw [hsame] at hb
      cases hb
      exact hp.type_ne ha
    · exact hf.type_ne hb

instance {c : Prop} [Decidable c] [hp : NoSequence p] [hq : NoSequence q] :
    NoSequence (if c then p else q) := by
  split
  · exact hp
  · exact hq

end NoSequence

namespace Convert

/-! ### Last steps -/

instance {native : Option Node} {w : Span} {ps : List Part} [ht : IsTrue (isSingle t)] :
    NoSequence (make native w t ps) where
  type_ne h := by
    cases h
    exact ne_of_isSingle ht.eq

instance {ps : List Part} [IsTrue (isSingle t)] : NoSequence (finish n t ps) := by
  unfold finish
  infer_instance

instance : NoSequence (unexpected n) := ⟨nofun⟩

instance : NoSequence (missing n) := ⟨nofun⟩

/-! ### Tokens -/

instance (k : TokenKind) : NoSequence (literal n k) := by
  unfold literal
  infer_instance

instance (k : TokenKind) : NoSequence (templateElement n k) := by
  unfold templateElement
  infer_instance

instance : NoSequence (identifier n) := by unfold identifier; infer_instance

instance : NoSequence (jsxText n) := by unfold jsxText; infer_instance

lemma isSingle_of_wordType? {k : TokenKind} (h : wordType? k = some t) : isSingle t = true := by
  unfold wordType? at h
  split at h <;> cases h <;> rfl

instance (k : TokenKind) : NoSequence (token n k) := by
  unfold token
  split
  case h_16 =>
    split
    · next ht =>
      have : IsTrue (isSingle _) := ⟨isSingle_of_wordType? ht⟩
      infer_instance
    · infer_instance
  all_goals infer_instance

/-! ### Types -/

section

variable [IsTrue (isSingle t)]

instance : NoSequence (wrappedType n t f) := by unfold wrappedType; infer_instance

instance : NoSequence (listedTypes n t f) := by unfold listedTypes; infer_instance

instance : NoSequence (typedExpression n t) := by unfold typedExpression; infer_instance

instance : NoSequence (heritageType n t) := by unfold heritageType; infer_instance

instance : NoSequence (wrappedExpression n t f) := by unfold wrappedExpression; infer_instance

instance : NoSequence (callSignature n t) := by unfold callSignature; infer_instance

instance : NoSequence (optionalExpression n t f r) := by unfold optionalExpression; infer_instance

instance : NoSequence (classLike n t) := by unfold classLike; infer_instance

end

instance : NoSequence (typeParameter n) := by unfold typeParameter; infer_instance

instance : NoSequence (typeReference n) := by unfold typeReference; infer_instance

instance : NoSequence (typeQuery n) := by unfold typeQuery; infer_instance

instance : NoSequence (typePredicate n) := by unfold typePredicate; infer_instance

instance : NoSequence (qualifiedName n) := by unfold qualifiedName; infer_instance

instance : NoSequence (conditionalType n) := by unfold conditionalType; infer_instance

instance : NoSequence (typeOperator n) := by
  unfold typeOperator
  split <;> infer_instance

instance : NoSequence (indexedAccessType n) := by unfold indexedAccessType; infer_instance

instance : NoSequence (mappedType n) := by unfold mappedType; infer_instance

instance : NoSequence (literalType n) := by unfold literalType; infer_instance

instance : NoSequence (namedTupleMember n) := by
  refine .after fun label => .after fun type => .keeping fun member => ?_
  split
  · exact .inl rfl
  · exact .inr inferInstance

instance : NoSequence (templateLiteralType n) := by unfold templateLiteralType; infer_instance

instance : NoSequence (importType n) := by
  refine .after fun whole => ?_
  extract_lets jp
  have hrest (w : Span) : NoSequence (jp w) := by
    refine .after fun _ => .after fun _ => .after fun _ => .after fun _ => .after fun _ => ?_
    refine .keeping fun type => ?_
    split
    · exact .inr inferInstance
    · exact .inl rfl
  infer_instance

/-! ### Expressions -/

instance : NoSequence (arrayLiteral n) := by unfold arrayLiteral; infer_instance

instance : NoSequence (objectLiteral n) := by unfold objectLiteral; infer_instance

instance : NoSequence (propertyAssignment n) := by unfold propertyAssignment; infer_instance

instance : NoSequence (shorthandProperty n) := by unfold shorthandProperty; infer_instance

instance : NoSequence (spread n) := by unfold spread; infer_instance

/-- A link stays as it is, or a chain is put around it. -/
lemma wrapChain_ends (n : Node) (link : EsNode) (f : Field) :
    wrapChain n link f = pure link ∨ NoSequence (wrapChain n link f) := by
  unfold wrapChain
  extract_lets optional closed subject? continues last
  have hlast (link : EsNode) : NoSequence (last link) := inferInstance
  split
  · exact .inl rfl
  · clear_value continues subject?
    right
    cases subject? <;> infer_instance

instance {p : Convert EsNode} [NoSequence p] : NoSequence (p >>= fun link => wrapChain n link f) :=
  .keeping fun link => wrapChain_ends n link f

instance : NoSequence (memberExpression n) := by unfold memberExpression; infer_instance

instance : NoSequence (importExpression n) := by
  unfold importExpression
  split <;> infer_instance

instance : NoSequence (callExpression n) := by unfold callExpression; infer_instance

instance : NoSequence (nonNull n) := by unfold nonNull; infer_instance

instance : NoSequence (newExpression n) := by unfold newExpression; infer_instance

instance : NoSequence (taggedTemplate n) := by unfold taggedTemplate; infer_instance

instance : NoSequence (templateExpression n) := by unfold templateExpression; infer_instance

instance (operator : String) : NoSequence (wordOperator n operator) := by
  unfold wordOperator
  infer_instance

instance : NoSequence (unaryExpression n) := by
  unfold unaryExpression
  split
  · split <;> infer_instance
  · infer_instance

instance : NoSequence (conditionalExpression n) := by unfold conditionalExpression; infer_instance

instance : NoSequence (yieldExpression n) := by unfold yieldExpression; infer_instance

instance : NoSequence (metaProperty n) := by
  unfold metaProperty
  split <;> infer_instance

instance : NoSequence (instantiation n) := by
  refine .after fun e => .after fun args => ?_
  split <;> infer_instance

/-! ### Patterns, modules and functions -/

instance : NoSequence (objectBindingPattern n) := by unfold objectBindingPattern; infer_instance

instance : NoSequence (arrayBindingPattern n) := by unfold arrayBindingPattern; infer_instance

/-- A declaration stays as it is, or is exported. -/
lemma wrapExport_ends (n : Node) (e : EsNode) :
    wrapExport n e = pure e ∨ NoSequence (wrapExport n e) := by
  unfold wrapExport
  split
  · refine .inr (.after fun x => ?_)
    obtain ⟨_, after⟩ := x
    dsimp only
    split <;> infer_instance
  · exact .inl rfl

instance {p : Convert EsNode} [NoSequence p] : NoSequence (p >>= wrapExport n) :=
  .keeping (wrapExport_ends n)

instance : NoSequence (moduleDeclaration n) := by unfold moduleDeclaration; infer_instance

instance : NoSequence (moduleBlock n) := by unfold moduleBlock; infer_instance

instance : NoSequence (importDeclaration n) := by
  unfold importDeclaration
  extract_lets clause? last
  have hlast (names : List EsNode) : NoSequence (last names) := inferInstance
  clear_value last clause?
  cases clause? <;> infer_instance

instance : NoSequence (importDefault n) := by unfold importDefault; infer_instance

instance : NoSequence (namespaceImport n) := by unfold namespaceImport; infer_instance

instance : NoSequence (importSpecifier n) := by unfold importSpecifier; infer_instance

instance : NoSequence (importAttribute n) := by unfold importAttribute; infer_instance

instance : NoSequence (attributesObject n) := by unfold attributesObject; infer_instance

instance : NoSequence (importEquals n) := by unfold importEquals; infer_instance

instance : NoSequence (exportAll n) := by unfold exportAll; infer_instance

instance (clause : Node) : NoSequence (namedExports n clause) := by
  unfold namedExports
  infer_instance

instance : NoSequence (exportDeclaration n) := by
  unfold exportDeclaration
  split <;> infer_instance

instance : NoSequence (exportSpecifier n) := by unfold exportSpecifier; infer_instance

instance : NoSequence (exportAssignment n) := by unfold exportAssignment; infer_instance

instance : NoSequence (namespaceExport n) := by unfold namespaceExport; infer_instance

instance : NoSequence (functionDeclaration n) := by unfold functionDeclaration; infer_instance

instance : NoSequence (functionExpression n) := by unfold functionExpression; infer_instance

instance : NoSequence (arrowFunction n) := by unfold arrowFunction; infer_instance

instance : NoSequence (propertySignature n) := by unfold propertySignature; infer_instance

instance : NoSequence (methodSignature n) := by unfold methodSignature; infer_instance

instance : NoSequence (indexSignature n) := by unfold indexSignature; infer_instance

instance : NoSequence (functionType n) := by unfold functionType; infer_instance

/-! ### Classes, elements and statements -/

instance : NoSequence (classDeclaration n) := by unfold classDeclaration; infer_instance

instance : IsTrue (isSingle (methodType n)) := by
  unfold methodType
  infer_instance

instance {isAccessor isAbstract : Bool} :
    IsTrue (isSingle (propertyType isAccessor isAbstract)) := by
  unfold propertyType
  split <;> infer_instance

instance : NoSequence (propertyDeclaration n) := by unfold propertyDeclaration; infer_instance

instance : NoSequence (objectMethod n) := by unfold objectMethod; infer_instance

instance : NoSequence (classMethod n) := by unfold classMethod; infer_instance

instance : NoSequence (method n) := by unfold method; infer_instance

instance : NoSequence (constructorMember n) := by unfold constructorMember; infer_instance

instance : NoSequence (staticBlock n) := by unfold staticBlock; infer_instance

instance : NoSequence (interfaceDeclaration n) := by unfold interfaceDeclaration; infer_instance

instance : NoSequence (typeAlias n) := by unfold typeAlias; infer_instance

instance : NoSequence (enumDeclaration n) := by unfold enumDeclaration; infer_instance

instance : NoSequence (enumMember n) := by unfold enumMember; infer_instance

instance : NoSequence (jsxIdentifier n) := by unfold jsxIdentifier; infer_instance

instance : NoSequence (jsxName n) := by unfold jsxName; infer_instance

instance {native : Option Node} {w : Span} {selfClosing : Bool} :
    NoSequence (openingElement native n w selfClosing) := by
  unfold openingElement
  refine .after fun _ => .after fun _ => .after fun _ => ?_
  split <;> infer_instance

instance : NoSequence (jsxOpening n) := by unfold jsxOpening; infer_instance

instance : NoSequence (jsxSelfClosing n) := by unfold jsxSelfClosing; infer_instance

instance : NoSequence (jsxClosing n) := by unfold jsxClosing; infer_instance

instance : NoSequence (jsxElement n) := by unfold jsxElement; infer_instance

instance : NoSequence (jsxFragment n) := by unfold jsxFragment; infer_instance

instance : NoSequence (jsxAttribute n) := by unfold jsxAttribute; infer_instance

instance : NoSequence (jsxExpression n) := by unfold jsxExpression; infer_instance

instance : NoSequence (block n) := by unfold block; infer_instance

instance : NoSequence (ifStatement n) := by unfold ifStatement; infer_instance

instance : NoSequence (doStatement n) := by unfold doStatement; infer_instance

instance : NoSequence (whileStatement n) := by unfold whileStatement; infer_instance

instance : NoSequence (forStatement n) := by unfold forStatement; infer_instance

instance : NoSequence (forEachStatement n) := by unfold forEachStatement; infer_instance

instance : NoSequence (withStatement n) := by unfold withStatement; infer_instance

instance : NoSequence (labeledStatement n) := by unfold labeledStatement; infer_instance

instance : NoSequence (switchStatement n) := by unfold switchStatement; infer_instance

instance : NoSequence (caseClause n) := by unfold caseClause; infer_instance

instance : NoSequence (tryStatement n) := by unfold tryStatement; infer_instance

instance : NoSequence (catchClause n) := by unfold catchClause; infer_instance

instance : NoSequence (variableStatement n) := by unfold variableStatement; infer_instance

instance : NoSequence (variableDeclarationList n) := by
  unfold variableDeclarationList
  infer_instance

instance : NoSequence (variableDeclarator n) := by unfold variableDeclarator; infer_instance

/-! ### Rules -/

/-- Forms that hand on what a part of them is converted to. -/
def holderForms : List Form :=
  [.parenthesizedExpression, .computedPropertyName, .parenthesizedType, .parameter, .bindingElement]

variable {g : Form}

lemma noSequence_orElse {o o' : Option (Convert EsNode)} (h : ∀ p, o = some p → NoSequence p)
    (h' : ∀ p, o' = some p → NoSequence p) : ∀ p, (o <|> o') = some p → NoSequence p := by
  cases o with
  | some q => exact h
  | none => exact h'

/-- The rule for a form that hands on nothing. -/
lemma ruleFor_noSequence (hholder : g ∉ holderForms) (hbinary : g ≠ .binaryExpression) :
    NoSequence (ruleFor n g) := by
  have hexpression (p : Convert EsNode) (h : expressionForm n g = some p) : NoSequence p := by
    unfold expressionForm at h
    split at h <;> cases h
    all_goals first
      | infer_instance
      | exact absurd (by decide) hholder
      | exact absurd rfl hbinary
  have hstatement (p : Convert EsNode) (h : statementForm n g = some p) : NoSequence p := by
    unfold statementForm at h
    split at h <;> cases h <;> infer_instance
  have hdeclaration (p : Convert EsNode) (h : declarationForm n g = some p) : NoSequence p := by
    unfold declarationForm at h
    split at h <;> cases h <;> infer_instance
  have htype (p : Convert EsNode) (h : typeForm n g = some p) : NoSequence p := by
    unfold typeForm at h
    split at h <;> cases h
    all_goals first
      | infer_instance
      | exact absurd (by decide) hholder
  have helement (p : Convert EsNode) (h : elementForm n g = some p) : NoSequence p := by
    unfold elementForm at h
    split at h <;> cases h <;> infer_instance
  unfold ruleFor
  cases h : expressionForm n g <|> statementForm n g <|> declarationForm n g <|> typeForm n g <|>
      elementForm n g with
  | some p =>
    refine noSequence_orElse hexpression (noSequence_orElse hstatement ?_) p h
    exact noSequence_orElse hdeclaration (noSequence_orElse htype helement)
  | none => exact inferInstanceAs (NoSequence (unexpected n))

/-- Expressions with a comma between them. -/
structure IsComma (n : Node) : Prop where
  kind : n.kind = .form .binaryExpression
  operator : operator? n = some .comma

lemma binaryExpression_noSequence (h : operator? n ≠ some .comma) :
    NoSequence (binaryExpression n) := by
  unfold binaryExpression
  split
  · next k hk =>
    have hne : ¬ (k == TokenKind.comma) = true := fun hc => h (hk.trans (by rw [beq_iff_eq.1 hc]))
    rw [if_neg hne]
    split <;> infer_instance
  · infer_instance

/-- The rule for a comma. -/
lemma byRule_of_comma (h : IsComma n) : byRule n = sequence n := by
  have hoperator : (n.part? .operator).bind (·.token?) = some .comma := h.operator
  rw [byRule, h.kind]
  change binaryExpression n = _
  rw [binaryExpression, hoperator]
  rfl

/-- **Only a comma comes to a sequence**, and what hands on the sequence in it. -/
theorem byRule_noSequence (hholder : ∀ g ∈ holderForms, n.kind ≠ .form g) (hcomma : ¬ IsComma n) :
    NoSequence (byRule n) := by
  unfold byRule
  split
  · infer_instance
  · next g hk =>
    by_cases hbinary : g = .binaryExpression
    · subst hbinary
      exact binaryExpression_noSequence fun h => hcomma ⟨hk, h⟩
    · exact ruleFor_noSequence (fun h => hholder g h hk) hbinary

end Convert

end EstreeLint.Estree
