import EstreeLint.Estree.Conversion.Element
import EstreeLint.Estree.Conversion.Statement

/-!
Conversion of a file: from its syntax tree to an ESTree, with the registry of which node comes
from which.

A node is converted by the rule for its form. A rule converts the parts of its node in the order
of the source, so the numbers of the new nodes follow it.
-/

namespace EstreeLint.Estree

namespace Convert

def expressionForm (n : Node) : Form → Option (Convert EsNode)
  | .arrayLiteralExpression => some (arrayLiteral n)
  | .objectLiteralExpression => some (objectLiteral n)
  | .propertyAssignment => some (propertyAssignment n)
  | .shorthandPropertyAssignment => some (shorthandProperty n)
  | .spreadAssignment | .spreadElement => some (spread n)
  | .propertyAccessExpression | .elementAccessExpression => some (memberExpression n)
  | .callExpression => some (callExpression n)
  | .newExpression => some (newExpression n)
  | .taggedTemplateExpression => some (taggedTemplate n)
  | .templateExpression => some (templateExpression n)
  | .parenthesizedExpression | .computedPropertyName => some (child n .expression)
  | .functionExpression => some (functionExpression n)
  | .arrowFunction => some (arrowFunction n)
  | .deleteExpression => some (wordOperator n "delete")
  | .typeOfExpression => some (wordOperator n "typeof")
  | .voidExpression => some (wordOperator n "void")
  | .awaitExpression => some (wrappedExpression n .awaitExpression .argument)
  | .prefixUnaryExpression | .postfixUnaryExpression => some (unaryExpression n)
  | .binaryExpression => some (binaryExpression n)
  | .conditionalExpression => some (conditionalExpression n)
  | .yieldExpression => some (yieldExpression n)
  | .classExpression => some (classLike n .classExpression)
  | .expressionWithTypeArguments => some (instantiation n)
  | .asExpression => some (typedExpression n .tsAsExpression)
  | .satisfiesExpression => some (typedExpression n .tsSatisfiesExpression)
  | .typeAssertionExpression => some (typedExpression n .tsTypeAssertion)
  | .nonNullExpression => some (nonNull n)
  | .metaProperty => some (metaProperty n)
  | .objectBindingPattern => some (objectBindingPattern n)
  | .arrayBindingPattern => some (arrayBindingPattern n)
  | .bindingElement => some (bindingElement n)
  | .parameter => some (parameter n)
  | .decorator => some (wrappedExpression n .decorator .expression)
  | _ => none

def statementForm (n : Node) : Form → Option (Convert EsNode)
  | .block => some (block n)
  | .emptyStatement => some (finish n .emptyStatement)
  | .debuggerStatement => some (finish n .debuggerStatement)
  | .expressionStatement => some (wrappedExpression n .expressionStatement .expression)
  | .ifStatement => some (ifStatement n)
  | .doStatement => some (doStatement n)
  | .whileStatement => some (whileStatement n)
  | .forStatement => some (forStatement n)
  | .forInStatement | .forOfStatement => some (forEachStatement n)
  | .continueStatement => some (optionalExpression n .continueStatement .label .label)
  | .breakStatement => some (optionalExpression n .breakStatement .label .label)
  | .returnStatement => some (optionalExpression n .returnStatement .argument .expression)
  | .throwStatement => some (wrappedExpression n .throwStatement .argument)
  | .withStatement => some (withStatement n)
  | .labeledStatement => some (labeledStatement n)
  | .switchStatement => some (switchStatement n)
  | .caseClause | .defaultClause => some (caseClause n)
  | .tryStatement => some (tryStatement n)
  | .catchClause => some (catchClause n)
  | .variableStatement => some (variableStatement n)
  | .variableDeclarationList => some (variableDeclarationList n)
  | .variableDeclaration => some (variableDeclarator n)
  | _ => none

def declarationForm (n : Node) : Form → Option (Convert EsNode)
  | .functionDeclaration => some (functionDeclaration n)
  | .classDeclaration => some (classDeclaration n)
  | .propertyDeclaration => some (propertyDeclaration n)
  | .methodDeclaration | .getAccessor | .setAccessor => some (method n)
  | .constructor => some (constructorMember n)
  | .classStaticBlockDeclaration => some (staticBlock n)
  | .propertySignature => some (propertySignature n)
  | .methodSignature => some (methodSignature n)
  | .indexSignature => some (indexSignature n)
  | .callSignature => some (callSignature n .tsCallSignatureDeclaration)
  | .constructSignature => some (callSignature n .tsConstructSignatureDeclaration)
  | .interfaceDeclaration => some (interfaceDeclaration n)
  | .typeAliasDeclaration => some (typeAlias n)
  | .enumDeclaration => some (enumDeclaration n)
  | .enumMember => some (enumMember n)
  | .moduleDeclaration => some (moduleDeclaration n)
  | .moduleBlock => some (moduleBlock n)
  | .importDeclaration => some (importDeclaration n)
  | .importClause => some (importDefault n)
  | .namespaceImport => some (namespaceImport n)
  | .importSpecifier => some (importSpecifier n)
  | .importAttribute => some (importAttribute n)
  | .importAttributes => some (attributesObject n)
  | .importEqualsDeclaration => some (importEquals n)
  | .externalModuleReference =>
    some (wrappedExpression n .tsExternalModuleReference .expression)
  | .exportDeclaration => some (exportDeclaration n)
  | .exportSpecifier => some (exportSpecifier n)
  | .exportAssignment => some (exportAssignment n)
  | .namespaceExportDeclaration => some (namespaceExport n)
  | _ => none

def typeForm (n : Node) : Form → Option (Convert EsNode)
  | .qualifiedName => some (qualifiedName n)
  | .typeParameter => some (typeParameter n)
  | .typeReference => some (typeReference n)
  | .typePredicate => some (typePredicate n)
  | .functionType | .constructorType => some (functionType n)
  | .typeQuery => some (typeQuery n)
  | .typeLiteral => some (listedTypes n .tsTypeLiteral .members)
  | .arrayType => some (wrappedType n .tsArrayType .elementType)
  | .tupleType => some (listedTypes n .tsTupleType .elementTypes)
  | .optionalType => some (wrappedType n .tsOptionalType .type)
  | .restType => some (wrappedType n .tsRestType .type)
  | .unionType => some (listedTypes n .tsUnionType .types)
  | .intersectionType => some (listedTypes n .tsIntersectionType .types)
  | .conditionalType => some (conditionalType n)
  | .inferType => some (wrappedType n .tsInferType .typeParameter)
  | .parenthesizedType => some (child n .type)
  | .thisType => some (finish n .tsThisType)
  | .typeOperator => some (typeOperator n)
  | .indexedAccessType => some (indexedAccessType n)
  | .mappedType => some (mappedType n)
  | .literalType => some (literalType n)
  | .namedTupleMember => some (namedTupleMember n)
  | .templateLiteralType => some (templateLiteralType n)
  | .importType => some (importType n)
  | _ => none

def elementForm (n : Node) : Form → Option (Convert EsNode)
  | .jsxElement => some (jsxElement n)
  | .jsxSelfClosingElement => some (jsxSelfClosing n)
  | .jsxOpeningElement => some (jsxOpening n)
  | .jsxClosingElement => some (jsxClosing n)
  | .jsxFragment => some (jsxFragment n)
  | .jsxOpeningFragment => some (finish n .jsxOpeningFragment)
  | .jsxClosingFragment => some (finish n .jsxClosingFragment)
  | .jsxAttribute => some (jsxAttribute n)
  | .jsxSpreadAttribute => some (wrappedExpression n .jsxSpreadAttribute .argument)
  | .jsxExpression => some (jsxExpression n)
  | .jsxNamespacedName => some (jsxName n)
  | _ => none

/-- The rule for a form. -/
def ruleFor (n : Node) (f : Form) : Convert EsNode :=
  (expressionForm n f <|> statementForm n f <|> declarationForm n f <|> typeForm n f <|>
    elementForm n f).getD (unexpected n)

/-- Converts a node by the rule for it. -/
def byRule (n : Node) : Convert EsNode :=
  match n.kind with
  | .token k => token n k
  | .form f => ruleFor n f

/-- Converts a node that has at most `depth` levels. -/
def node (file : SourceFile) : (depth : Nat) → Place → Node → Build EsNode
  | 0, _, n => throw (.unexpectedKind n.kind n.pos)
  | depth + 1, place, n => byRule n { file, place, recur := node file depth }

/-- The whole file. Its range starts at the first token. -/
def program (n : Node) : Convert EsNode := do
  let statements ← body n .statement true
  let file := (← read).file
  make (some n) (Span.between (file.startOf n) n.stop) .program
    [.list .body statements, .text .sourceType (if file.isModule then "module" else "script")]

end Convert

/-- A converted file. -/
structure Conversion where
  program : EsNode
  registry : Registry

/-- Converts a file. -/
def Conversion.ofFile (file : SourceFile) : Except ConvertError Conversion := do
  let env : Env := { file, place := {}, recur := Convert.node file file.root.height }
  let (program, registry) ← (Convert.program file.root env).run {}
  return { program, registry }

namespace Conversion

variable {file : SourceFile}

theorem exists_of_any {p : Conversion → Bool} (h : (ofFile file).toOption.any p = true) :
    ∃ c, ofFile file = .ok c ∧ p c = true := by
  cases hc : ofFile file with
  | error e =>
    rw [hc] at h
    cases h
  | ok c =>
    rw [hc] at h
    exact ⟨c, rfl, h⟩

theorem exists_of_isOk (h : (ofFile file).isOk = true) : ∃ c, ofFile file = .ok c := by
  cases hc : ofFile file with
  | error e =>
    rw [hc] at h
    cases h
  | ok c => exact ⟨c, rfl⟩

end Conversion

end EstreeLint.Estree
