import EstreeLint.Grammar.Signature

/-!
Members of classes, object literals, interfaces and object types.
-/

namespace EstreeLint.Grammar

open Parse

/-- `get` or `set` before the name of a member. -/
def atAccessor : Parse Bool :=
  atAny [.getKw, .setKw] <&&> lookAhead do
    next
    sameLine <&&> canFollowModifier

/-- The name of a constructor before its signature. -/
def atConstructor : Parse Bool := do
  let named ← isAt .constructorKw <||>
    (isAt .stringLiteral <&&> return (← tokenValue) == "constructor")
  if named then return [TokenKind.openParen, .lessThan].contains (← peek) else return false

/-- A bracket that opens an index signature rather than an expression. -/
def atIndexSignature : Parse Bool := isAt .openBracket <&&> lookAhead do
  let inside ← nextToken
  if inside == .dotDotDot || inside == .closeBracket then return true
  if inside.isModifier then
    next
    if ← atIdentifier then return true
  else if ← atIdentifier then next
  else return false
  match ← token with
  | .colon | .comma => return true
  | .question =>
    next
    atAny [.colon, .comma, .closeBracket]
  | _ => return false

/-- An accessor. One in a type has no body. -/
def accessor (start : Nat) (mods : Option NodeList) (inType : Bool) : Parse Node := do
  let form := if ← isAt .getKw then Form.getAccessor else .setAccessor
  next
  let name ← propertyName
  let parts ← withContext {} functionScope
    (if inType then typeSignature else signature bodyOrSemicolon)
  finish form start ([.optional .modifier mods, .one .name name] ++ parts)

def indexSignature (start : Nat) (mods : Option NodeList) : Parse Node := do
  let params ← enclosedList .openBracket .closeBracket parameter
  let type ← declaredType
  typeMemberEnd
  finish .indexSignature start
    [.optional .modifier mods, .many .parameter params, .one .declaredType type]

/-- A method from its signature on. -/
def methodRest (start : Nat) (mods : Option NodeList) (asterisk : Option Node) (name : Node)
    (question : Option Node) : Parse Node := do
  let parts ← withContext (functionContext asterisk.isSome (hasModifier mods .asyncKw))
    functionScope (signature bodyOrSemicolon)
  finish .methodDeclaration start
    ([.optional .modifier mods, .one .asterisk asterisk, .one .name name,
      .one .question question] ++ parts)

/-! ### Classes -/

def constructor (start : Nat) (mods : Option NodeList) : Parse Node := do
  next
  let parts ← withContext {} functionScope (signature bodyOrSemicolon)
  finish .constructor start (.optional .modifier mods :: parts)

/-- A property from its type on, behind the mark that its name may have. -/
def propertyRest (start : Nat) (mods : Option NodeList) (name : Node) (mark : Option Node) :
    Parse Node := do
  let type ← declaredType
  let value ← withContext {} functionScope initializer
  semicolon
  finish .propertyDeclaration start
    [.optional .modifier mods, .one .name name, .one .mark mark, .one .declaredType type,
      .one .initializer value]

def propertyOrMethod (start : Nat) (mods : Option NodeList) : Parse Node := do
  let asterisk ← optionalToken .asterisk
  let name ← propertyName
  let question ← optionalToken .question
  if asterisk.isSome || (← atAny [.openParen, .lessThan]) then
    return ← methodRest start mods asterisk name question
  if question.isNone then
    if ← isAt .exclamation <&&> sameLine then
      let mark ← tokenNode
      return ← propertyRest start mods name mark
  propertyRest start mods name question

def staticBlock (start : Nat) : Parse Node := do
  next
  let body ← withContext { awaiting := true } { yielding := true } block
  finish .classStaticBlockDeclaration start [.one .body body]

/-- A member of a class; nothing where no member begins. -/
def classMember : Parse (Option Node) := do
  let start ← pos
  if ← accept .semicolon then return some (← finish .semicolonClassElement start)
  if ← isAt .staticKw <&&> followedBy .openBrace then return some (← staticBlock start)
  let mods ← modifiers
  if ← atAccessor then return some (← accessor start mods false)
  if ← atConstructor then return some (← constructor start mods)
  if ← atIndexSignature then return some (← indexSignature start mods)
  if ← atLiteralName <||> atAny [.asterisk, .privateIdentifier, .openBracket] then
    return some (← propertyOrMethod start mods)
  if mods.isSome then
    error .declarationExpected
    let name ← missing
    return some (← finish .propertyDeclaration start
      [.optional .modifier mods, .one .name name])
  error .classMemberExpected
  return none

/-! ### Types -/

def propertyOrMethodSignature (start : Nat) (mods : Option NodeList) : Parse Node := do
  let name ← propertyName
  let question ← optionalToken .question
  if ← atAny [.openParen, .lessThan] then
    let parts ← typeSignature
    return ← finish .methodSignature start
      ([.optional .modifier mods, .one .name name, .one .question question] ++ parts)
  let type ← declaredType
  let value ←
    if ← isAt .equals then
      error .initializedTypeMember
      initializer
    else pure none
  typeMemberEnd
  finish .propertySignature start
    [.optional .modifier mods, .one .name name, .one .mark question, .one .declaredType type,
      .one .initializer value]

/-- A member of a type; nothing where no member begins. -/
def typeMember : Parse (Option Node) := do
  let start ← pos
  if ← atAny [.openParen, .lessThan] then
    return some (← finish .callSignature start (← typeSignature))
  if ← isAt .newKw <&&> return [TokenKind.openParen, .lessThan].contains (← peek) then
    next
    return some (← finish .constructSignature start (← typeSignature))
  let mods ← modifiers
  if ← atAccessor then return some (← accessor start mods true)
  if ← atIndexSignature then return some (← indexSignature start mods)
  if ← atLiteralName <||> atAny [.privateIdentifier, .openBracket] then
    return some (← propertyOrMethodSignature start mods)
  error .typeMemberExpected
  return none

/-- The members of a type in braces. -/
def typeMembers : Parse NodeList := do
  expect_ .openBrace
  let members ← listUntil [.closeBrace] typeMember
  expect_ .closeBrace
  return members

end EstreeLint.Grammar
