/-!
The types of node in an ESTree.
-/

namespace EstreeLint.Estree

inductive NodeType where
  -- the whole file
  | program
  -- names and literals
  | identifier | privateIdentifier | literal | templateLiteral | templateElement
  -- expressions
  | thisExpression | superReference | arrayExpression | objectExpression | property
  | spreadElement | functionExpression | arrowFunctionExpression | classExpression
  | yieldExpression | awaitExpression | taggedTemplateExpression | unaryExpression
  | updateExpression | binaryExpression | logicalExpression | assignmentExpression
  | sequenceExpression | conditionalExpression | memberExpression | callExpression
  | newExpression | importExpression | chainExpression | metaProperty
  -- patterns
  | arrayPattern | objectPattern | assignmentPattern | restElement
  -- statements
  | blockStatement | expressionStatement | emptyStatement | debuggerStatement | withStatement
  | returnStatement | labeledStatement | breakStatement | continueStatement | ifStatement
  | switchStatement | switchCase | throwStatement | tryStatement | catchClause | whileStatement
  | doWhileStatement | forStatement | forInStatement | forOfStatement
  -- declarations
  | functionDeclaration | variableDeclaration | variableDeclarator | classDeclaration | classBody
  | methodDefinition | propertyDefinition | accessorProperty | staticBlock | decorator
  -- modules
  | importDeclaration | importDefaultSpecifier | importNamespaceSpecifier | importSpecifier
  | importAttribute | exportNamedDeclaration | exportDefaultDeclaration | exportAllDeclaration
  | exportSpecifier
  -- elements
  | jsxElement | jsxFragment | jsxOpeningElement | jsxClosingElement | jsxOpeningFragment
  | jsxClosingFragment | jsxAttribute | jsxSpreadAttribute | jsxIdentifier | jsxNamespacedName
  | jsxMemberExpression | jsxExpressionContainer | jsxEmptyExpression | jsxSpreadChild | jsxText
  -- types: annotations, parameters, references
  | tsTypeMark | tsTypeParameterDeclaration | tsTypeParameterInstantiation | tsTypeParameter
  | tsParameterProperty | tsQualifiedName | tsTypeReference
  -- types: keyword types
  | tsAnyKeyword | tsBigIntKeyword | tsBooleanKeyword | tsIntrinsicKeyword | tsNeverKeyword
  | tsNullKeyword | tsNumberKeyword | tsObjectKeyword | tsStringKeyword | tsSymbolKeyword
  | tsUndefinedKeyword | tsUnknownKeyword | tsVoidKeyword | tsThisType | tsAbstractKeyword
  -- types: type expressions
  | tsTypeLiteral | tsArrayType | tsIndexedAccessType | tsConditionalType | tsTypeQuery
  | tsMappedType | tsUnionType | tsIntersectionType | tsInferType | tsLiteralType | tsTupleType
  | tsNamedTupleMember | tsOptionalType | tsRestType | tsTemplateLiteralType | tsTypeOperator
  | tsTypePredicate | tsImportType | tsFunctionType | tsConstructorType
  -- types: members and signatures
  | tsPropertySignature | tsMethodSignature | tsIndexSignature | tsCallSignatureDeclaration
  | tsConstructSignatureDeclaration | tsAbstractMethodDefinition | tsAbstractPropertyDefinition
  | tsAbstractAccessorProperty | tsDeclareFunction | tsEmptyBodyFunctionExpression
  -- types: expressions
  | tsAsExpression | tsSatisfiesExpression | tsTypeAssertion | tsNonNullExpression
  | tsInstantiationExpression
  -- types: declarations
  | tsInterfaceDeclaration | tsInterfaceBody | tsInterfaceHeritage | tsClassImplements
  | tsTypeAliasDeclaration | tsEnumDeclaration | tsEnumBody | tsEnumMember | tsModuleDeclaration
  | tsModuleBlock | tsImportEqualsDeclaration | tsExternalModuleReference
  | tsNamespaceExportDeclaration | tsExportAssignment
deriving DecidableEq, Repr

namespace NodeType

/-- The name under which a type is shown. -/
def name : NodeType → String
  | .program => "Program"
  | .identifier => "Identifier"
  | .privateIdentifier => "PrivateIdentifier"
  | .literal => "Literal"
  | .templateLiteral => "TemplateLiteral"
  | .templateElement => "TemplateElement"
  | .thisExpression => "ThisExpression"
  | .superReference => "Super"
  | .arrayExpression => "ArrayExpression"
  | .objectExpression => "ObjectExpression"
  | .property => "Property"
  | .spreadElement => "SpreadElement"
  | .functionExpression => "FunctionExpression"
  | .arrowFunctionExpression => "ArrowFunctionExpression"
  | .classExpression => "ClassExpression"
  | .yieldExpression => "YieldExpression"
  | .awaitExpression => "AwaitExpression"
  | .taggedTemplateExpression => "TaggedTemplateExpression"
  | .unaryExpression => "UnaryExpression"
  | .updateExpression => "UpdateExpression"
  | .binaryExpression => "BinaryExpression"
  | .logicalExpression => "LogicalExpression"
  | .assignmentExpression => "AssignmentExpression"
  | .sequenceExpression => "SequenceExpression"
  | .conditionalExpression => "ConditionalExpression"
  | .memberExpression => "MemberExpression"
  | .callExpression => "CallExpression"
  | .newExpression => "NewExpression"
  | .importExpression => "ImportExpression"
  | .chainExpression => "ChainExpression"
  | .metaProperty => "MetaProperty"
  | .arrayPattern => "ArrayPattern"
  | .objectPattern => "ObjectPattern"
  | .assignmentPattern => "AssignmentPattern"
  | .restElement => "RestElement"
  | .blockStatement => "BlockStatement"
  | .expressionStatement => "ExpressionStatement"
  | .emptyStatement => "EmptyStatement"
  | .debuggerStatement => "DebuggerStatement"
  | .withStatement => "WithStatement"
  | .returnStatement => "ReturnStatement"
  | .labeledStatement => "LabeledStatement"
  | .breakStatement => "BreakStatement"
  | .continueStatement => "ContinueStatement"
  | .ifStatement => "IfStatement"
  | .switchStatement => "SwitchStatement"
  | .switchCase => "SwitchCase"
  | .throwStatement => "ThrowStatement"
  | .tryStatement => "TryStatement"
  | .catchClause => "CatchClause"
  | .whileStatement => "WhileStatement"
  | .doWhileStatement => "DoWhileStatement"
  | .forStatement => "ForStatement"
  | .forInStatement => "ForInStatement"
  | .forOfStatement => "ForOfStatement"
  | .functionDeclaration => "FunctionDeclaration"
  | .variableDeclaration => "VariableDeclaration"
  | .variableDeclarator => "VariableDeclarator"
  | .classDeclaration => "ClassDeclaration"
  | .classBody => "ClassBody"
  | .methodDefinition => "MethodDefinition"
  | .propertyDefinition => "PropertyDefinition"
  | .accessorProperty => "AccessorProperty"
  | .staticBlock => "StaticBlock"
  | .decorator => "Decorator"
  | .importDeclaration => "ImportDeclaration"
  | .importDefaultSpecifier => "ImportDefaultSpecifier"
  | .importNamespaceSpecifier => "ImportNamespaceSpecifier"
  | .importSpecifier => "ImportSpecifier"
  | .importAttribute => "ImportAttribute"
  | .exportNamedDeclaration => "ExportNamedDeclaration"
  | .exportDefaultDeclaration => "ExportDefaultDeclaration"
  | .exportAllDeclaration => "ExportAllDeclaration"
  | .exportSpecifier => "ExportSpecifier"
  | .jsxElement => "JSXElement"
  | .jsxFragment => "JSXFragment"
  | .jsxOpeningElement => "JSXOpeningElement"
  | .jsxClosingElement => "JSXClosingElement"
  | .jsxOpeningFragment => "JSXOpeningFragment"
  | .jsxClosingFragment => "JSXClosingFragment"
  | .jsxAttribute => "JSXAttribute"
  | .jsxSpreadAttribute => "JSXSpreadAttribute"
  | .jsxIdentifier => "JSXIdentifier"
  | .jsxNamespacedName => "JSXNamespacedName"
  | .jsxMemberExpression => "JSXMemberExpression"
  | .jsxExpressionContainer => "JSXExpressionContainer"
  | .jsxEmptyExpression => "JSXEmptyExpression"
  | .jsxSpreadChild => "JSXSpreadChild"
  | .jsxText => "JSXText"
  | .tsTypeMark => "TSTypeAnnotation"
  | .tsTypeParameterDeclaration => "TSTypeParameterDeclaration"
  | .tsTypeParameterInstantiation => "TSTypeParameterInstantiation"
  | .tsTypeParameter => "TSTypeParameter"
  | .tsParameterProperty => "TSParameterProperty"
  | .tsQualifiedName => "TSQualifiedName"
  | .tsTypeReference => "TSTypeReference"
  | .tsAnyKeyword => "TSAnyKeyword"
  | .tsBigIntKeyword => "TSBigIntKeyword"
  | .tsBooleanKeyword => "TSBooleanKeyword"
  | .tsIntrinsicKeyword => "TSIntrinsicKeyword"
  | .tsNeverKeyword => "TSNeverKeyword"
  | .tsNullKeyword => "TSNullKeyword"
  | .tsNumberKeyword => "TSNumberKeyword"
  | .tsObjectKeyword => "TSObjectKeyword"
  | .tsStringKeyword => "TSStringKeyword"
  | .tsSymbolKeyword => "TSSymbolKeyword"
  | .tsUndefinedKeyword => "TSUndefinedKeyword"
  | .tsUnknownKeyword => "TSUnknownKeyword"
  | .tsVoidKeyword => "TSVoidKeyword"
  | .tsThisType => "TSThisType"
  | .tsAbstractKeyword => "TSAbstractKeyword"
  | .tsTypeLiteral => "TSTypeLiteral"
  | .tsArrayType => "TSArrayType"
  | .tsIndexedAccessType => "TSIndexedAccessType"
  | .tsConditionalType => "TSConditionalType"
  | .tsTypeQuery => "TSTypeQuery"
  | .tsMappedType => "TSMappedType"
  | .tsUnionType => "TSUnionType"
  | .tsIntersectionType => "TSIntersectionType"
  | .tsInferType => "TSInferType"
  | .tsLiteralType => "TSLiteralType"
  | .tsTupleType => "TSTupleType"
  | .tsNamedTupleMember => "TSNamedTupleMember"
  | .tsOptionalType => "TSOptionalType"
  | .tsRestType => "TSRestType"
  | .tsTemplateLiteralType => "TSTemplateLiteralType"
  | .tsTypeOperator => "TSTypeOperator"
  | .tsTypePredicate => "TSTypePredicate"
  | .tsImportType => "TSImportType"
  | .tsFunctionType => "TSFunctionType"
  | .tsConstructorType => "TSConstructorType"
  | .tsPropertySignature => "TSPropertySignature"
  | .tsMethodSignature => "TSMethodSignature"
  | .tsIndexSignature => "TSIndexSignature"
  | .tsCallSignatureDeclaration => "TSCallSignatureDeclaration"
  | .tsConstructSignatureDeclaration => "TSConstructSignatureDeclaration"
  | .tsAbstractMethodDefinition => "TSAbstractMethodDefinition"
  | .tsAbstractPropertyDefinition => "TSAbstractPropertyDefinition"
  | .tsAbstractAccessorProperty => "TSAbstractAccessorProperty"
  | .tsDeclareFunction => "TSDeclareFunction"
  | .tsEmptyBodyFunctionExpression => "TSEmptyBodyFunctionExpression"
  | .tsAsExpression => "TSAsExpression"
  | .tsSatisfiesExpression => "TSSatisfiesExpression"
  | .tsTypeAssertion => "TSTypeAssertion"
  | .tsNonNullExpression => "TSNonNullExpression"
  | .tsInstantiationExpression => "TSInstantiationExpression"
  | .tsInterfaceDeclaration => "TSInterfaceDeclaration"
  | .tsInterfaceBody => "TSInterfaceBody"
  | .tsInterfaceHeritage => "TSInterfaceHeritage"
  | .tsClassImplements => "TSClassImplements"
  | .tsTypeAliasDeclaration => "TSTypeAliasDeclaration"
  | .tsEnumDeclaration => "TSEnumDeclaration"
  | .tsEnumBody => "TSEnumBody"
  | .tsEnumMember => "TSEnumMember"
  | .tsModuleDeclaration => "TSModuleDeclaration"
  | .tsModuleBlock => "TSModuleBlock"
  | .tsImportEqualsDeclaration => "TSImportEqualsDeclaration"
  | .tsExternalModuleReference => "TSExternalModuleReference"
  | .tsNamespaceExportDeclaration => "TSNamespaceExportDeclaration"
  | .tsExportAssignment => "TSExportAssignment"

end NodeType

end EstreeLint.Estree
