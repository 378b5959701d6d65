import EstreeLint.Proofs.Estree.Settled

/-!
What the conversion of a node needs.

The conversion of a node converts some of its parts, and gives up if a part that it asks for is
not there or is of a kind that no rule is for. `needs` says for every node which parts these are.
Most forms only name the roles they read, which the table `wants` lists.
-/

namespace EstreeLint.Estree

/-- A node to convert, with the kind of the node that it is converted as a part of. -/
structure Site where
  parent : NodeKind
  node : Node

/-- The nodes that a conversion goes on to, with `none` for something that is missing. -/
abbrev Needs := List (Option Site)

namespace Needs

def each (n : Node) (ms : List Node) : Needs := ms.map fun m => some ⟨n.kind, m⟩

/-- A part that must be there. -/
def must (n : Node) (r : Role) : Needs := [(n.part? r).map fun m => ⟨n.kind, m⟩]

/-- A part that may be there. -/
def may (n : Node) (r : Role) : Needs := each n (n.part? r).toList

/-- The parts with a role. -/
def all (n : Node) (r : Role) : Needs := each n (n.partsOf r)

/-- The parts of a list in angle brackets. -/
def listed (n : Node) (r : Role) : Needs := if (n.list? r).isSome then all n r else []

/-- A fact about the node itself. -/
def fact (b : Bool) : Needs := if b then [] else [none]

/-- What is needed of a part that must be there but is not converted itself. -/
def within (n : Node) (r : Role) (needs : Node → Needs) : Needs := (n.part? r).elim [none] needs

/-- What is needed of a part that may be there but is not converted itself. -/
def inside (n : Node) (r : Role) (needs : Node → Needs) : Needs := (n.part? r).elim [] needs

def decorators (n : Node) : Needs := each n ((n.partsOf .modifier).filter (·.isForm .decorator))

/-- The type parameters, the parameters with their decorators, and the type of the result. -/
def signature (n : Node) : Needs :=
  listed n .typeParameter ++
    ((n.partsOf .parameter).flatMap fun m => some ⟨n.kind, m⟩ :: decorators m) ++
    may n .declaredType

end Needs

/-- A way in which a form reads a part. -/
inductive Want where
  | must (r : Role) | may (r : Role) | all (r : Role) | listed (r : Role)
  /-- The elements of a part that must be there. -/
  | elementsOf (r : Role)
  /-- The elements of a part that may be there. -/
  | elementsIn (r : Role)
  | signature
  /-- The text of the word that the node holds. -/
  | word
  /-- No rule is for the form. -/
  | never
deriving DecidableEq

def Needs.ofWant (n : Node) : Want → Needs
  | .must r => must n r
  | .may r => may n r
  | .all r => all n r
  | .listed r => listed n r
  | .elementsOf r => within n r (all · .element)
  | .elementsIn r => inside n r (all · .element)
  | .signature => signature n
  | .word => fact (n.word?.bind TokenKind.text?).isSome
  | .never => [none]

def Needs.ofWants (n : Node) : List Want → Needs
  | [] => []
  | [w] => ofWant n w
  | w :: ws => ofWant n w ++ ofWants n ws

/-- What the forms read that only name the roles. -/
def wants : Form → List Want
  -- expressions
  | .objectLiteralExpression | .objectBindingPattern => [.all .element]
  | .propertyAssignment | .importAttribute => [.must .name, .must .value]
  | .shorthandPropertyAssignment => [.must .name, .may .initializer]
  | .spreadAssignment | .spreadElement | .parenthesizedExpression | .computedPropertyName
  | .deleteExpression | .typeOfExpression | .voidExpression | .awaitExpression | .decorator
  | .expressionStatement | .throwStatement | .externalModuleReference | .jsxSpreadAttribute
  | .nonNullExpression | .exportAssignment => [.must .expression]
  | .propertyAccessExpression => [.must .expression, .must .name]
  | .elementAccessExpression => [.must .expression, .must .argument]
  | .newExpression => [.must .expression, .listed .typeArgument, .all .argument]
  | .taggedTemplateExpression => [.must .tag, .listed .typeArgument, .must .template]
  | .functionExpression | .functionDeclaration => [.may .name, .signature, .may .body]
  | .arrowFunction => [.signature, .must .body]
  | .prefixUnaryExpression | .postfixUnaryExpression => [.word, .must .operand]
  | .conditionalExpression => [.must .condition, .must .whenTrue, .must .whenFalse]
  | .yieldExpression | .returnStatement | .jsxExpression => [.may .expression]
  | .asExpression | .satisfiesExpression | .typeAssertionExpression =>
    [.must .expression, .must .type]
  | .metaProperty => [.word, .must .name]
  -- statements
  | .block | .moduleBlock | .variableDeclarationList => [.all .element]
  | .emptyStatement | .debuggerStatement | .thisType | .jsxOpeningFragment
  | .jsxClosingFragment => []
  | .ifStatement => [.must .condition, .must .thenStatement, .may .elseStatement]
  | .doStatement => [.must .statement, .must .condition]
  | .whileStatement => [.must .condition, .must .statement]
  | .forStatement =>
    [.may .initializer, .may .condition, .may .incrementor, .must .statement]
  | .forInStatement | .forOfStatement =>
    [.must .initializer, .must .expression, .must .statement]
  | .continueStatement | .breakStatement => [.may .label]
  | .withStatement => [.must .head, .must .statement]
  | .labeledStatement => [.must .label, .must .statement]
  | .switchStatement => [.must .expression, .elementsOf .caseBlock]
  | .caseClause | .defaultClause => [.may .expression, .all .statement]
  | .tryStatement => [.must .tryBlock, .may .catchClause, .may .finallyBlock]
  | .variableStatement => [.elementsOf .declarationList]
  | .variableDeclaration => [.must .name, .may .declaredType, .may .initializer]
  -- members and declarations
  | .constructor => [.signature, .may .body]
  | .classStaticBlockDeclaration => [.elementsOf .body]
  | .propertySignature => [.must .name, .may .declaredType]
  | .methodSignature => [.must .name, .signature]
  | .indexSignature => [.all .parameter, .may .declaredType]
  | .callSignature | .constructSignature | .functionType | .constructorType => [.signature]
  | .typeAliasDeclaration => [.must .name, .listed .typeParameter, .must .type]
  | .enumDeclaration => [.must .name, .all .member]
  | .enumMember => [.must .name, .may .value]
  | .importClause | .namespaceImport | .namespaceExportDeclaration => [.must .name]
  | .importEqualsDeclaration => [.must .name, .must .moduleReference]
  -- types
  | .qualifiedName => [.must .left, .must .right]
  | .typeParameter => [.must .name, .may .constraint, .may .default]
  | .typeReference | .typeQuery => [.must .typeName, .listed .typeArgument]
  | .typePredicate => [.must .parameterName, .may .type]
  | .typeLiteral | .tupleType | .unionType | .intersectionType => [.all .element]
  | .arrayType | .optionalType | .restType | .inferType | .parenthesizedType => [.must .type]
  | .conditionalType =>
    [.must .checkType, .must .extendsType, .must .trueType, .must .falseType]
  | .typeOperator => [.word, .must .type]
  | .indexedAccessType => [.must .objectType, .must .indexType]
  | .namedTupleMember => [.must .name, .must .type]
  | .importType =>
    [.must .argument, .may .attributes, .may .qualifier, .listed .typeArgument]
  -- elements
  | .jsxElement => [.must .opening, .all .child, .may .closing]
  | .jsxFragment => [.must .opening, .all .child, .must .closing]
  | _ => [.never]

namespace Needs

/-! ### Expressions -/

/-- The elements of an array that are not left out. -/
def filled (n : Node) : Needs :=
  each n ((n.partsOf .element).filter (!·.isForm .omittedExpression))

/-- A call. The word `import` is not converted; what it is called with are one or two parts. -/
def call (n : Node) : Needs :=
  if (n.part? .expression).any (·.isToken .importKw) then
    match n.partsOf .argument with
    | [] => [none]
    | source :: rest => each n (source :: rest.head?.toList)
  else must n .expression ++ listed n .typeArgument ++ all n .argument

/-- The operands of an operator that has a text. -/
def operands (n : Node) : Needs :=
  fact (((n.part? .operator).bind (·.token?)).any fun k => k == .comma || k.text?.isSome) ++
    must n .left ++ must n .right

def template (n : Node) : Needs :=
  must n .head ++ (n.partsOf .span).flatMap fun span => must span .expression ++ must span .literal

/-- A name with type arguments, as a class or an interface names it in its heritage. -/
def applied (n : Node) : Needs := must n .typeName ++ listed n .typeArgument

/-! ### Patterns -/

/-- What stands for the key of an entry in an object pattern or a specifier. -/
def keyRole (n : Node) : Role := if (n.part? .propertyName).isSome then .propertyName else .name

def bindingElement (parent : NodeKind) (n : Node) : Needs :=
  if parent == .form .arrayBindingPattern then must n .name ++ may n .initializer
  else if (n.part? .dots).isSome then must n (keyRole n)
  else must n (keyRole n) ++ must n .name ++ may n .initializer

/-- A parameter that takes the rest has no value for when there is none. -/
def parameter (n : Node) : Needs :=
  must n .name ++ may n .declaredType ++
    if (n.part? .dots).isSome then [] else may n .initializer

/-! ### Classes -/

/-- The heritage of a class: of the first `extends` clause the first name, and of the
`implements` clauses the first that has any. -/
def heritage : (sawExtends sawTypes : Bool) → List Node → Needs
  | _, _, [] => []
  | sawExtends, sawTypes, c :: cs =>
    if c.word? == some .extendsKw then
      if sawExtends then heritage sawExtends sawTypes cs
      else (c.partsOf .element).head?.elim [] applied ++ heritage true sawTypes cs
    else if sawTypes then heritage sawExtends sawTypes cs
    else
      (c.partsOf .element).flatMap applied ++
        heritage sawExtends (!(c.partsOf .element).isEmpty) cs

def classLike (n : Node) : Needs :=
  decorators n ++ may n .name ++ listed n .typeParameter ++
    heritage false false (n.partsOf .heritage) ++
    each n ((n.partsOf .member).filter (!·.isForm .semicolonClassElement))

/-- A property of a class. The value of an abstract one is not read. -/
def property (n : Node) : Needs :=
  decorators n ++ must n .name ++ may n .declaredType ++
    if Convert.hasWord n .abstractKw then [] else may n .initializer

/-- A method or an accessor, by what it belongs to. -/
def method (parent : NodeKind) (n : Node) : Needs :=
  let inType := parent == .form .interfaceDeclaration || parent == .form .typeLiteral
  if inType && !n.isForm .methodDeclaration then must n .name ++ signature n
  else if parent == .form .objectLiteralExpression then
    must n .name ++ signature n ++ may n .body
  else decorators n ++ must n .name ++ signature n ++ may n .body

def interface (n : Node) : Needs :=
  must n .name ++ listed n .typeParameter ++
    ((Convert.clausesOf n .extendsKw).flatMap fun c => (c.partsOf .element).flatMap applied) ++
    all n .member

/-! ### Modules -/

/-- The declarations that a dotted name nests. -/
def nestedModules (n : Node) : List Node :=
  if n.flags.globalAugmentation || (n.part? .name).any (·.isToken .stringLiteral) then []
  else Convert.innerDeclarations n.height n

def moduleDeclaration (n : Node) : Needs :=
  must n .name ++ (nestedModules n).flatMap (must · .name) ++
    may ((nestedModules n).getLastD n) .body

/-- The names that an import clause brings in. -/
def importClause (n clause : Node) : Needs :=
  (if (clause.part? .name).isSome then [some ⟨n.kind, clause⟩] else []) ++
    inside clause .namedBindings fun bindings =>
      if bindings.isForm .namespaceImport then [some ⟨clause.kind, bindings⟩]
      else all bindings .element

def attributes (n : Node) : Needs := inside n .attributes (all · .element)

def importDeclaration (n : Node) : Needs :=
  inside n .importClause (importClause n) ++ must n .moduleSpecifier ++ attributes n

def exportDeclaration (n : Node) : Needs :=
  match n.part? .exportClause with
  | some clause =>
    if clause.isForm .namedExports then
      all clause .element ++ may n .moduleSpecifier ++ attributes n
    else must clause .name ++ must n .moduleSpecifier ++ attributes n
  | none => must n .moduleSpecifier ++ attributes n

def specifier (n : Node) : Needs := must n (keyRole n) ++ must n .name

/-! ### Elements -/

def jsxName (n : Node) : Needs :=
  if n.isForm .jsxNamespacedName then
    fact (n.part? .namespaceName).isSome ++ fact (n.part? .name).isSome
  else []

/-- The name of a tag, which may have dots. -/
def tagName : Node → Needs
  | .node label parts =>
    match label.kind, parts with
    | .form .propertyAccessExpression, [object, _] => tagName object
    | _, _ => jsxName (.node label parts)

def openingElement (n : Node) : Needs :=
  within n .tagName tagName ++ listed n .typeArgument ++ attributes n

end Needs

/-- A token that a rule is for. -/
def isConvertible (k : TokenKind) : Bool :=
  [TokenKind.identifier, .privateIdentifier, .stringLiteral, .numericLiteral, .bigIntLiteral,
    .regularExpressionLiteral, .trueKw, .falseKw, .nullKw, .noSubstitutionTemplateLiteral,
    .templateHead, .templateMiddle, .templateTail, .jsxText, .jsxTextAllWhiteSpaces].contains k ||
    (Convert.wordType? k).isSome

open Needs in
/-- What the conversion of a form needs. -/
def formNeeds (parent : NodeKind) (n : Node) : Form → Needs
  | .arrayLiteralExpression | .arrayBindingPattern => filled n
  | .callExpression => call n
  | .binaryExpression => operands n
  | .templateExpression | .templateLiteralType => template n
  | .expressionWithTypeArguments => applied n ++ fact (n.list? .typeArgument).isSome
  | .bindingElement => bindingElement parent n
  | .parameter => parameter n
  | .catchClause =>
    inside n .variableDeclaration (fun v => must v .name ++ may v .declaredType) ++ must n .block
  | .classDeclaration | .classExpression => classLike n
  | .propertyDeclaration => property n
  | .methodDeclaration | .getAccessor | .setAccessor => method parent n
  | .interfaceDeclaration => interface n
  | .moduleDeclaration => moduleDeclaration n
  | .importDeclaration => importDeclaration n
  | .exportDeclaration => exportDeclaration n
  | .importSpecifier | .exportSpecifier => specifier n
  | .importAttributes =>
    (n.partsOf .element).flatMap fun e => must e .name ++ must e .value
  | .mappedType =>
    within n .typeParameter (fun p => must p .name ++ must p .constraint) ++ may n .nameType ++
      may n .type
  | .literalType => if (n.part? .type).any (·.isToken .nullKw) then [] else must n .type
  | .jsxOpeningElement | .jsxSelfClosingElement => openingElement n
  | .jsxClosingElement => within n .tagName tagName
  | .jsxAttribute => within n .name jsxName ++ may n .initializer
  | .jsxNamespacedName => jsxName n
  | f => ofWants n (wants f)

/-- What the conversion of a node needs. -/
def needs (s : Site) : Needs :=
  match s.node.kind with
  | .token k => Needs.fact (isConvertible k)
  | .form f => formNeeds s.parent s.node f

/-- The nodes that the conversion of a file comes to. -/
inductive Visited (file : SourceFile) : Site → Prop where
  | statement {m : Node} (h : m ∈ file.root.partsOf .statement) : Visited file ⟨file.root.kind, m⟩
  | part {s t : Site} (hs : Visited file s) (h : some t ∈ needs s) : Visited file t

end EstreeLint.Estree
