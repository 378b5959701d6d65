import EstreeLint.Grammar.Member

/-!
Types.
-/

namespace EstreeLint.Grammar

open Parse

/-! ### Function types -/

/-- Passes over what may begin a parameter. -/
def skipParameterStart : Parse Bool := do
  if (← token).isModifier then discard modifiers
  if ← atIdentifier <||> isAt .thisKw then
    next
    return true
  if ← atAny [.openBracket, .openBrace] then
    let before ← errorCount
    discard (reach .binding)
    return before == (← errorCount)
  return false

/-- A parenthesis that opens parameters rather than a type. -/
def atFunctionTypeParameters : Parse Bool := lookAhead do
  next
  if ← atAny [.closeParen, .dotDotDot] then return true
  if ← skipParameterStart then
    if ← atAny [.colon, .comma, .question, .equals] then return true
    if ← isAt .closeParen then return (← nextToken) == .equalsGreaterThan
  return false

def atFunctionType : Parse Bool := do
  match ← token with
  | .lessThan | .newKw => return true
  | .openParen => atFunctionTypeParameters
  | .abstractKw => followedBy .newKw
  | _ => return false

/-- The type of a function or of a constructor. -/
def functionType : Parse Node := do
  let start ← pos
  let words ← optionalToken .abstractKw
  let mods ← listFrom? start words.toList
  let form := if ← accept .newKw then Form.constructorType else .functionType
  let typeParams ← typeParameters
  let params ← parameters
  expect_ .equalsGreaterThan
  let type ← typeOrPredicate
  finish form start
    [.optional .modifier mods, .optional .typeParameter typeParams, .many .parameter params,
      .one .declaredType type]

/-! ### References and literals -/

/-- Type arguments on the line of what they belong to, if there are any. -/
def typeArgumentsOnLine : Parse (Option NodeList) := do
  if ← afterLineBreak then return none
  if (← rescan Scanner.rescanLess) == .lessThan then return some (← typeArguments)
  return none

def typeReference : Parse Node := do
  let start ← pos
  let name ← entityName true
  let args ← typeArgumentsOnLine
  finish .typeReference start [.one .typeName name, .optional .typeArgument args]

/-- The type of a value. -/
def typeQuery : Parse Node := do
  let start ← pos
  expect_ .typeOfKw
  let name ← entityName true
  let args ← typeArgumentsOnLine
  finish .typeQuery start [.one .typeName name, .optional .typeArgument args]

/-- The attributes of an import in a type, if there are any. -/
def importTypeAttributes : Parse (Option Node) := do
  if ← accept .comma <&&> accept .openBrace then
    let attributes ←
      if ← atAny [.withKw, .assertKw] then some <$> importAttributes true
      else
        error (.expected .withKw)
        pure none
    discard (accept .comma)
    expect_ .closeBrace
    discard (accept .comma)
    return attributes
  else return none

/-- A type from another module. -/
def importType : Parse Node := do
  let start ← pos
  let isTypeOf ← accept .typeOfKw
  expect_ .importKw
  expect_ .openParen
  let argument ← reach .type
  let attributes ← importTypeAttributes
  expect_ .closeParen
  let qualifier ← if ← accept .dot then some <$> entityName true else pure none
  let args ← typeArgumentsOnLine
  finish .importType start
    [.data (.flag isTypeOf), .one .argument argument, .one .attributes attributes,
      .one .qualifier qualifier, .optional .typeArgument args]

/-- A literal that can be a type, perhaps with a minus. -/
def signedLiteral : Parse Node := do
  match ← token with
  | .minus =>
    let start ← pos
    next
    let operand ← literal
    finish .prefixUnaryExpression start [.data (.token .minus), .one .operand operand]
  | .trueKw | .falseKw | .nullKw => tokenNode
  | _ => literal

/-- A literal as a type. -/
def literalType : Parse Node := do
  let start ← pos
  let value ← signedLiteral
  finish .literalType start [.one .type value]

/-! ### Tuples -/

/-- An element of a tuple that has a name. -/
def atNamedTupleMember : Parse Bool := lookAhead do
  discard (accept .dotDotDot)
  if ← atWord then
    match ← nextToken with
    | .colon => return true
    | .question => return (← nextToken) == .colon
    | _ => return false
  else return false

def tupleElementType : Parse Node := do
  let start ← pos
  if ← accept .dotDotDot then
    let inner ← reach .type
    finish .restType start [.one .type inner]
  else
    let inner ← reach .type
    if ← accept .question then finish .optionalType start [.one .type inner]
    else return inner

def tupleElement : Parse Node := do
  let start ← pos
  if ← atNamedTupleMember then
    let dots ← optionalToken .dotDotDot
    let name ← identifierName
    let question ← optionalToken .question
    expect_ .colon
    let type ← tupleElementType
    finish .namedTupleMember start
      [.one .dots dots, .one .name name, .one .question question, .one .type type]
  else tupleElementType

def tupleType : Parse Node := do
  let start ← pos
  let elements ← enclosedList .openBracket .closeBracket tupleElement
  finish .tupleType start [.many .element elements]

/-! ### Mapped types -/

/-- A brace that opens a mapped type. -/
def atMappedType : Parse Bool := lookAhead do
  next
  if ← atAny [.plus, .minus] then return (← nextToken) == .readonlyKw
  discard (accept .readonlyKw)
  if ← accept .openBracket then
    atIdentifier <&&> return (← nextToken) == .inKw
  else return false

/-- A mark in a mapped type: the mark itself, or a sign before it. -/
def signedMark (k : TokenKind) : Parse (Option Node) := do
  if ← isAt k then return some (← tokenNode)
  if ← atAny [.plus, .minus] then
    let sign ← tokenNode
    expect_ k
    return some sign
  return none

/-- A member that stands where a mapped type has none. -/
def strayMember : Parse Node := do
  error .memberInMappedType
  let start ← pos
  let name ← propertyName
  let type ← declaredType
  typeMemberEnd
  finish .propertySignature start [.one .name name, .one .declaredType type]

/-- The parameter of a mapped type with the type that it runs through. -/
def mappedParameter : Parse Node := do
  let start ← pos
  let name ← identifier
  expect_ .inKw
  let constraint ← reach .type
  finish .typeParameter start [.one .name name, .one .constraint constraint]

def mappedType : Parse Node := do
  let start ← pos
  expect_ .openBrace
  let readonlyMark ← signedMark .readonlyKw
  expect_ .openBracket
  let param ← mappedParameter
  let nameType ← typeAfter .asKw
  expect_ .closeBracket
  let question ← signedMark .question
  let type ← declaredType
  semicolon
  let stray ← listUntil [.closeBrace] (some <$> strayMember)
  expect_ .closeBrace
  finish .mappedType start
    [.one .readonlyMark readonlyMark, .one .typeParameter param, .one .nameType nameType,
      .one .question question, .one .type type,
      .optional .member (if stray.nodes.isEmpty then none else some stray)]

/-! ### Other types -/

def parenthesizedType : Parse Node := do
  let start ← pos
  next
  let inner ← reach .type
  expect_ .closeParen
  finish .parenthesizedType start [.one .type inner]

def typeLiteral : Parse Node := do
  let start ← pos
  let members ← typeMembers
  finish .typeLiteral start [.many .element members]

/-- The type of `this`, or a predicate on it. -/
def thisTypeOrPredicate : Parse Node := do
  let start ← pos
  let this ← thisType
  if ← isAt .isKw <&&> sameLine then
    next
    let type ← reach .type
    finish .typePredicate start [.one .parameterName this, .one .type type]
  else return this

/-- A type that is complete by itself. -/
def basicType : Parse Node := do
  match ← token with
  | .anyKw | .unknownKw | .stringKw | .numberKw | .bigIntKw | .symbolKw | .booleanKw
  | .undefinedKw | .neverKw | .objectKw | .intrinsicKw =>
    if ← followedBy .dot then typeReference else tokenNode
  | .voidKw => tokenNode
  | .stringLiteral | .numericLiteral | .bigIntLiteral | .trueKw | .falseKw | .nullKw
  | .noSubstitutionTemplateLiteral => literalType
  | .minus =>
    if [TokenKind.numericLiteral, .bigIntLiteral].contains (← peek) then literalType
    else typeReference
  | .thisKw => thisTypeOrPredicate
  | .typeOfKw => if ← followedBy .importKw then importType else typeQuery
  | .openBrace => if ← atMappedType then mappedType else typeLiteral
  | .openBracket => tupleType
  | .openParen => parenthesizedType
  | .importKw => importType
  | .templateHead => template .templateLiteralType .templateLiteralTypeSpan (reach .type)
  | k =>
    if k.isIdentifierOrKeyword then typeReference
    else
      error .typeExpected
      missing

/-- The brackets after a type on its line, if there are any. -/
def brackets (start : Nat) (type : Node) : Parse (Option Node) := do
  if ← afterLineBreak then return none
  if ← accept .openBracket then
    if ← accept .closeBracket then return some (← finish .arrayType start [.one .type type])
    let index ← reach .type
    expect_ .closeBracket
    return some (← finish .indexedAccessType start
      [.one .objectType type, .one .indexType index])
  return none

/-- A type with the brackets after it. -/
def bracketedType : Parse Node := do
  let start ← pos
  (← basicType) |> iterate (brackets start)

/-- A parameter of a type that is to be inferred. Its constraint is given up where it turns out
to belong to a condition. -/
def inferredParameter : Parse Node := do
  let start ← pos
  let name ← identifier
  let constraint ← attempt do
    if ← accept .extendsKw then
      let constraint ← withContext { noConditionalType := true } {} (reach .type)
      if ← inContext (·.noConditionalType) <||> return !(← isAt .question) then
        return some constraint
    return none
  finish .typeParameter start [.one .name name, .one .constraint constraint]

/-- A type with the operators before it. -/
def typeOperator : Parse Node := do
  let start ← pos
  match ← token with
  | .keyOfKw | .uniqueKw | .readonlyKw =>
    let operator ← token
    next
    let type ← reach .typeOperator
    finish .typeOperator start [.data (.token operator), .one .type type]
  | .inferKw =>
    next
    let param ← inferredParameter
    finish .inferType start [.one .type param]
  | _ => withContext {} { noConditionalType := true } bracketedType

/-- A type behind an operator. -/
def typeOperand (constituent : Parse Node) : Parse Node := do
  if ← atFunctionType then functionType else constituent

/-- Types with an operator between them, which may also stand before the first. -/
def typeList (operator : TokenKind) (form : Form) (constituent : Parse Node) : Parse Node := do
  let start ← pos
  let leading ← accept operator
  let first ← if leading then typeOperand constituent else constituent
  if !leading && !(← isAt operator) then return first
  let rest ← many (behind operator (typeOperand constituent))
  let list ← listFrom start (first :: rest)
  finish form start [.many .element list]

def intersectionType : Parse Node := typeList .ampersand .intersectionType typeOperator

def unionType : Parse Node := typeList .bar .unionType intersectionType

/-- A type of any kind, a function type or a condition included. -/
def anyType : Parse Node := do
  if ← atFunctionType then return ← functionType
  let start ← pos
  let checked ← unionType
  let conditional ← (return !(← inContext (·.noConditionalType))) <&&> sameLine
    <&&> accept .extendsKw
  if conditional then
    let bound ← withContext { noConditionalType := true } {} (reach .type)
    expect_ .question
    let whenTrue ← withContext {} { noConditionalType := true } (reach .type)
    expect_ .colon
    let whenFalse ← withContext {} { noConditionalType := true } (reach .type)
    finish .conditionalType start
      [.one .checkType checked, .one .extendsType bound, .one .trueType whenTrue,
        .one .falseType whenFalse]
  else return checked

def type : Parse Node := nested missing anyType

/-! ### Type arguments in expressions -/

/-- Type arguments may stand before the token at hand. -/
def canFollowTypeArguments : Parse Bool := do
  match ← token with
  | .openParen | .noSubstitutionTemplateLiteral | .templateHead => return true
  | .lessThan | .greaterThan | .plus | .minus => return false
  | k =>
    let isOperator := 0 < binaryPrecedence k && !(k == .inKw && (← inContext (·.noIn)))
    return (← afterLineBreak) || isOperator || !isExpressionStart k

/-- Type arguments in an expression, where `<` may also be an operator. -/
def typeArgumentsInExpression : Parse (Option NodeList) := do
  if ← atAny [.lessThan, .lessThanLessThan] then
    attempt do
      if (← rescan Scanner.rescanLess) != .lessThan then return none
      next
      let before ← errorCount
      let list ← commaList .greaterThan (reach .type)
      if (← errorCount) != before then return none
      if (← rescan Scanner.rescanGreater) != .greaterThan then return none
      next
      if ← canFollowTypeArguments then return some list else return none
  else return none

end EstreeLint.Grammar
