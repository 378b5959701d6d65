import EstreeLint.Token.Kind

/-!
Kinds of node in a syntax tree. A node is a single token or one of the composite forms; forms
are numbered after the tokens.
-/

namespace EstreeLint

/-- A composite construct of the language. -/
inductive Form where
  -- names, members, signatures
  | qualifiedName | computedPropertyName | typeParameter | parameter | decorator
  | propertySignature | propertyDeclaration | methodSignature | methodDeclaration
  | classStaticBlockDeclaration | constructor | getAccessor | setAccessor | callSignature
  | constructSignature | indexSignature
  -- types
  | typePredicate | typeReference | functionType | constructorType | typeQuery | typeLiteral
  | arrayType | tupleType | optionalType | restType | unionType | intersectionType
  | conditionalType | inferType | parenthesizedType | thisType | typeOperator | indexedAccessType
  | mappedType | literalType | namedTupleMember | templateLiteralType | templateLiteralTypeSpan
  | importType
  -- patterns
  | objectBindingPattern | arrayBindingPattern | bindingElement
  -- expressions
  | arrayLiteralExpression | objectLiteralExpression | propertyAccessExpression
  | elementAccessExpression | callExpression | newExpression | taggedTemplateExpression
  | typeAssertionExpression | parenthesizedExpression | functionExpression | arrowFunction
  | deleteExpression | typeOfExpression | voidExpression | awaitExpression | prefixUnaryExpression
  | postfixUnaryExpression | binaryExpression | conditionalExpression | templateExpression
  | yieldExpression | spreadElement | classExpression | omittedExpression
  | expressionWithTypeArguments | asExpression | nonNullExpression | metaProperty
  | satisfiesExpression | templateSpan | semicolonClassElement
  -- statements
  | block | emptyStatement | variableStatement | expressionStatement | ifStatement | doStatement
  | whileStatement | forStatement | forInStatement | forOfStatement | continueStatement
  | breakStatement | returnStatement | withStatement | switchStatement | labeledStatement
  | throwStatement | tryStatement | debuggerStatement
  -- declarations and modules
  | variableDeclaration | variableDeclarationList | functionDeclaration | classDeclaration
  | interfaceDeclaration | typeAliasDeclaration | enumDeclaration | moduleDeclaration
  | moduleBlock | caseBlock | namespaceExportDeclaration | importEqualsDeclaration
  | importDeclaration | importClause | namespaceImport | namedImports | importSpecifier
  | exportAssignment | exportDeclaration | namedExports | namespaceExport | exportSpecifier
  | missingDeclaration | externalModuleReference
  -- elements
  | jsxElement | jsxSelfClosingElement | jsxOpeningElement | jsxClosingElement | jsxFragment
  | jsxOpeningFragment | jsxClosingFragment | jsxAttribute | jsxAttributes | jsxSpreadAttribute
  | jsxExpression | jsxNamespacedName
  -- clauses, entries, the file
  | caseClause | defaultClause | heritageClause | catchClause | importAttributes | importAttribute
  | propertyAssignment | shorthandPropertyAssignment | spreadAssignment | enumMember | sourceFile
deriving DecidableEq, Repr

namespace Form

/-- Every form, in the order of the listing. -/
def all : List Form := [
  .qualifiedName, .computedPropertyName, .typeParameter, .parameter, .decorator,
  .propertySignature, .propertyDeclaration, .methodSignature, .methodDeclaration,
  .classStaticBlockDeclaration, .constructor, .getAccessor, .setAccessor, .callSignature,
  .constructSignature, .indexSignature, .typePredicate, .typeReference, .functionType,
  .constructorType, .typeQuery, .typeLiteral, .arrayType, .tupleType, .optionalType, .restType,
  .unionType, .intersectionType, .conditionalType, .inferType, .parenthesizedType, .thisType,
  .typeOperator, .indexedAccessType, .mappedType, .literalType, .namedTupleMember,
  .templateLiteralType, .templateLiteralTypeSpan, .importType, .objectBindingPattern,
  .arrayBindingPattern, .bindingElement, .arrayLiteralExpression, .objectLiteralExpression,
  .propertyAccessExpression, .elementAccessExpression, .callExpression, .newExpression,
  .taggedTemplateExpression, .typeAssertionExpression, .parenthesizedExpression,
  .functionExpression, .arrowFunction, .deleteExpression, .typeOfExpression, .voidExpression,
  .awaitExpression, .prefixUnaryExpression, .postfixUnaryExpression, .binaryExpression,
  .conditionalExpression, .templateExpression, .yieldExpression, .spreadElement, .classExpression,
  .omittedExpression, .expressionWithTypeArguments, .asExpression, .nonNullExpression,
  .metaProperty, .satisfiesExpression, .templateSpan, .semicolonClassElement, .block,
  .emptyStatement, .variableStatement, .expressionStatement, .ifStatement, .doStatement,
  .whileStatement, .forStatement, .forInStatement, .forOfStatement, .continueStatement,
  .breakStatement, .returnStatement, .withStatement, .switchStatement, .labeledStatement,
  .throwStatement, .tryStatement, .debuggerStatement, .variableDeclaration,
  .variableDeclarationList, .functionDeclaration, .classDeclaration, .interfaceDeclaration,
  .typeAliasDeclaration, .enumDeclaration, .moduleDeclaration, .moduleBlock, .caseBlock,
  .namespaceExportDeclaration, .importEqualsDeclaration, .importDeclaration, .importClause,
  .namespaceImport, .namedImports, .importSpecifier, .exportAssignment, .exportDeclaration,
  .namedExports, .namespaceExport, .exportSpecifier, .missingDeclaration,
  .externalModuleReference, .jsxElement, .jsxSelfClosingElement, .jsxOpeningElement,
  .jsxClosingElement, .jsxFragment, .jsxOpeningFragment, .jsxClosingFragment, .jsxAttribute,
  .jsxAttributes, .jsxSpreadAttribute, .jsxExpression, .jsxNamespacedName, .caseClause,
  .defaultClause, .heritageClause, .catchClause, .importAttributes, .importAttribute,
  .propertyAssignment, .shorthandPropertyAssignment, .spreadAssignment, .enumMember, .sourceFile]

/-- The place of a form in the listing. -/
def number (f : Form) : Nat := f.ctorIdx

/-- The name under which a form is shown. -/
def name : Form → String
  | .qualifiedName => "QualifiedName"
  | .computedPropertyName => "ComputedPropertyName"
  | .typeParameter => "TypeParameter"
  | .parameter => "Parameter"
  | .decorator => "Decorator"
  | .propertySignature => "PropertySignature"
  | .propertyDeclaration => "PropertyDeclaration"
  | .methodSignature => "MethodSignature"
  | .methodDeclaration => "MethodDeclaration"
  | .classStaticBlockDeclaration => "ClassStaticBlockDeclaration"
  | .constructor => "Constructor"
  | .getAccessor => "GetAccessor"
  | .setAccessor => "SetAccessor"
  | .callSignature => "CallSignature"
  | .constructSignature => "ConstructSignature"
  | .indexSignature => "IndexSignature"
  | .typePredicate => "TypePredicate"
  | .typeReference => "TypeReference"
  | .functionType => "FunctionType"
  | .constructorType => "ConstructorType"
  | .typeQuery => "TypeQuery"
  | .typeLiteral => "TypeLiteral"
  | .arrayType => "ArrayType"
  | .tupleType => "TupleType"
  | .optionalType => "OptionalType"
  | .restType => "RestType"
  | .unionType => "UnionType"
  | .intersectionType => "IntersectionType"
  | .conditionalType => "ConditionalType"
  | .inferType => "InferType"
  | .parenthesizedType => "ParenthesizedType"
  | .thisType => "ThisType"
  | .typeOperator => "TypeOperator"
  | .indexedAccessType => "IndexedAccessType"
  | .mappedType => "MappedType"
  | .literalType => "LiteralType"
  | .namedTupleMember => "NamedTupleMember"
  | .templateLiteralType => "TemplateLiteralType"
  | .templateLiteralTypeSpan => "TemplateLiteralTypeSpan"
  | .importType => "ImportType"
  | .objectBindingPattern => "ObjectBindingPattern"
  | .arrayBindingPattern => "ArrayBindingPattern"
  | .bindingElement => "BindingElement"
  | .arrayLiteralExpression => "ArrayLiteralExpression"
  | .objectLiteralExpression => "ObjectLiteralExpression"
  | .propertyAccessExpression => "PropertyAccessExpression"
  | .elementAccessExpression => "ElementAccessExpression"
  | .callExpression => "CallExpression"
  | .newExpression => "NewExpression"
  | .taggedTemplateExpression => "TaggedTemplateExpression"
  | .typeAssertionExpression => "TypeAssertionExpression"
  | .parenthesizedExpression => "ParenthesizedExpression"
  | .functionExpression => "FunctionExpression"
  | .arrowFunction => "ArrowFunction"
  | .deleteExpression => "DeleteExpression"
  | .typeOfExpression => "TypeOfExpression"
  | .voidExpression => "VoidExpression"
  | .awaitExpression => "AwaitExpression"
  | .prefixUnaryExpression => "PrefixUnaryExpression"
  | .postfixUnaryExpression => "PostfixUnaryExpression"
  | .binaryExpression => "BinaryExpression"
  | .conditionalExpression => "ConditionalExpression"
  | .templateExpression => "TemplateExpression"
  | .yieldExpression => "YieldExpression"
  | .spreadElement => "SpreadElement"
  | .classExpression => "ClassExpression"
  | .omittedExpression => "OmittedExpression"
  | .expressionWithTypeArguments => "ExpressionWithTypeArguments"
  | .asExpression => "AsExpression"
  | .nonNullExpression => "NonNullExpression"
  | .metaProperty => "MetaProperty"
  | .satisfiesExpression => "SatisfiesExpression"
  | .templateSpan => "TemplateSpan"
  | .semicolonClassElement => "SemicolonClassElement"
  | .block => "Block"
  | .emptyStatement => "EmptyStatement"
  | .variableStatement => "VariableStatement"
  | .expressionStatement => "ExpressionStatement"
  | .ifStatement => "IfStatement"
  | .doStatement => "DoStatement"
  | .whileStatement => "WhileStatement"
  | .forStatement => "ForStatement"
  | .forInStatement => "ForInStatement"
  | .forOfStatement => "ForOfStatement"
  | .continueStatement => "ContinueStatement"
  | .breakStatement => "BreakStatement"
  | .returnStatement => "ReturnStatement"
  | .withStatement => "WithStatement"
  | .switchStatement => "SwitchStatement"
  | .labeledStatement => "LabeledStatement"
  | .throwStatement => "ThrowStatement"
  | .tryStatement => "TryStatement"
  | .debuggerStatement => "DebuggerStatement"
  | .variableDeclaration => "VariableDeclaration"
  | .variableDeclarationList => "VariableDeclarationList"
  | .functionDeclaration => "FunctionDeclaration"
  | .classDeclaration => "ClassDeclaration"
  | .interfaceDeclaration => "InterfaceDeclaration"
  | .typeAliasDeclaration => "TypeAliasDeclaration"
  | .enumDeclaration => "EnumDeclaration"
  | .moduleDeclaration => "ModuleDeclaration"
  | .moduleBlock => "ModuleBlock"
  | .caseBlock => "CaseBlock"
  | .namespaceExportDeclaration => "NamespaceExportDeclaration"
  | .importEqualsDeclaration => "ImportEqualsDeclaration"
  | .importDeclaration => "ImportDeclaration"
  | .importClause => "ImportClause"
  | .namespaceImport => "NamespaceImport"
  | .namedImports => "NamedImports"
  | .importSpecifier => "ImportSpecifier"
  | .exportAssignment => "ExportAssignment"
  | .exportDeclaration => "ExportDeclaration"
  | .namedExports => "NamedExports"
  | .namespaceExport => "NamespaceExport"
  | .exportSpecifier => "ExportSpecifier"
  | .missingDeclaration => "MissingDeclaration"
  | .externalModuleReference => "ExternalModuleReference"
  | .jsxElement => "JsxElement"
  | .jsxSelfClosingElement => "JsxSelfClosingElement"
  | .jsxOpeningElement => "JsxOpeningElement"
  | .jsxClosingElement => "JsxClosingElement"
  | .jsxFragment => "JsxFragment"
  | .jsxOpeningFragment => "JsxOpeningFragment"
  | .jsxClosingFragment => "JsxClosingFragment"
  | .jsxAttribute => "JsxAttribute"
  | .jsxAttributes => "JsxAttributes"
  | .jsxSpreadAttribute => "JsxSpreadAttribute"
  | .jsxExpression => "JsxExpression"
  | .jsxNamespacedName => "JsxNamespacedName"
  | .caseClause => "CaseClause"
  | .defaultClause => "DefaultClause"
  | .heritageClause => "HeritageClause"
  | .catchClause => "CatchClause"
  | .importAttributes => "ImportAttributes"
  | .importAttribute => "ImportAttribute"
  | .propertyAssignment => "PropertyAssignment"
  | .shorthandPropertyAssignment => "ShorthandPropertyAssignment"
  | .spreadAssignment => "SpreadAssignment"
  | .enumMember => "EnumMember"
  | .sourceFile => "SourceFile"

end Form

/-- What a node is: a token or a form. -/
inductive NodeKind where
  | token (k : TokenKind)
  | form (f : Form)
deriving DecidableEq, Repr

namespace NodeKind

def ofNumber? (n : Nat) : Option NodeKind :=
  match TokenKind.ofNumber? n with
  | some k => some (.token k)
  | none => (Form.all[n - TokenKind.all.length]?).map .form

def name : NodeKind → String
  | .token k => k.name
  | .form f => f.name

/-- The name shown for a number, also for one that is no kind. -/
def nameOfNumber (n : Nat) : String := ((ofNumber? n).map name).getD TokenKind.unknown.name

def token? : NodeKind → Option TokenKind
  | .token k => some k
  | .form _ => none

/-- An element, a tag of one, or an attribute. -/
def isJsxTagLike : NodeKind → Bool
  | .form f => Form.jsxElement.number ≤ f.number && f.number ≤ Form.jsxAttribute.number
  | .token _ => false

end NodeKind

end EstreeLint
