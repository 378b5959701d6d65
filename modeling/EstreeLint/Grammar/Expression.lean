import EstreeLint.Grammar.Class

/-!
Expressions up to calls: literals, functions, member access, calls, `new`.
-/

namespace EstreeLint.Grammar

open Parse

/-- An expression behind a comma, joined to those before it. -/
def commaOperand (start : Nat) (left : Node) : Parse (Option Node) := do
  if ← isAt .comma then
    let operator ← tokenNode
    let right ← reach (.assignment true)
    return some (← finish .binaryExpression start
      [.one .left left, .one .operator operator, .one .right right])
  else return none

/-- Expressions with commas between them. -/
def expression : Parse Node := withContext {} { decorating := true } do
  let start ← pos
  (← reach (.assignment true)) |> iterate (commaOperand start)

/-- An expression in which `in` is an operator. -/
def fullExpression : Parse Node := withContext {} { noIn := true } expression

/-! ### Lists -/

/-- An argument of a call or an element of an array: an expression, several spread out, or
none. -/
def listElement : Parse Node := do
  let start ← pos
  match ← token with
  | .dotDotDot =>
    next
    let e ← reach (.assignment true)
    finish .spreadElement start [.one .expression e]
  | .comma => node (.form .omittedExpression) start start
  | _ => reach (.assignment true)

def argumentList : Parse NodeList :=
  enclosedList .openParen .closeParen
    (withContext {} { noIn := true, decorating := true } listElement)

def arrayLiteral : Parse Node := do
  let start ← pos
  let elements ← enclosedList .openBracket .closeBracket
    (withContext {} { noIn := true } listElement)
  finish .arrayLiteralExpression start [.many .element elements]

def objectElement : Parse Node := do
  let start ← pos
  if ← accept .dotDotDot then
    let e ← reach (.assignment true)
    return ← finish .spreadAssignment start [.one .expression e]
  let mods ← modifiers
  if ← atAccessor then return ← accessor start mods false
  let asterisk ← optionalToken .asterisk
  let startsWithName ← atIdentifier
  let name ← propertyName
  let question ← optionalToken .question
  if asterisk.isSome || (← atAny [.openParen, .lessThan]) then
    return ← methodRest start mods asterisk name question
  if startsWithName && !(← isAt .colon) then
    let value ← initializer
    return ← finish .shorthandPropertyAssignment start [.one .name name, .one .initializer value]
  expect_ .colon
  let value ← reach (.assignment true)
  finish .propertyAssignment start [.one .name name, .one .value value]

def objectLiteral : Parse Node := do
  let start ← pos
  let elements ← enclosedList .openBrace .closeBrace
    (withContext {} { noIn := true } objectElement)
  finish .objectLiteralExpression start [.many .element elements]

/-! ### Primary expressions -/

def parenthesized : Parse Node := do
  let start ← pos
  expect_ .openParen
  let e ← fullExpression
  expect_ .closeParen
  finish .parenthesizedExpression start [.one .expression e]

/-- The word `async` as a list of modifiers, if it is there. -/
def asyncModifier : Parse (Option NodeList) := do
  let start ← pos
  listFrom? start (← optionalToken .asyncKw).toList

def functionExpression : Parse Node := do
  let start ← pos
  let mods ← asyncModifier
  expect_ .functionKw
  let asterisk ← optionalToken .asterisk
  let (name, parts) ← withContext (functionContext asterisk.isSome mods.isSome) functionScope do
    let name ← if ← atIdentifier then some <$> identifier else pure none
    let parts ← signature (some <$> block)
    return (name, parts)
  finish .functionExpression start
    ([.optional .modifier mods, .one .asterisk asterisk, .one .name name] ++ parts)

def templateExpression : Parse Node := template .templateExpression .templateSpan fullExpression

/-- The token at hand opens a template. -/
def atTemplate : Parse Bool := atAny [.noSubstitutionTemplateLiteral, .templateHead]

/-- A template with or without substitutions. -/
def anyTemplate : Parse Node := do
  if ← isAt .noSubstitutionTemplateLiteral then literal else templateExpression

/-- A member is named after `?.`. -/
def atOptionalMember : Parse Bool := isAt .questionDot <&&> lookAhead do
  next
  atWord <||>
    atAny [.openBracket, .privateIdentifier, .noSubstitutionTemplateLiteral, .templateHead]

/-- Marks of a link that belongs to an optional chain: it has a `?.` of its own, or what it
continues has the mark. -/
def chainFlags (questionDot : Option Node) (inner : Node) : NodeFlags :=
  { optionalChain := questionDot.isSome || inner.flags.optionalChain }

def taggedTemplate (start : Nat) (tag : Node) (questionDot : Option Node)
    (args : Option NodeList) : Parse Node := do
  let piece ← anyTemplate
  finish .taggedTemplateExpression start
    [.one .tag tag, .optional .typeArgument args, .one .template piece]
    (chainFlags questionDot tag)

/-- A member named after a dot. -/
def propertyAccess (start : Nat) (e : Node) (questionDot : Option Node) : Parse Node := do
  let name ← memberName
  finish .propertyAccessExpression start
    [.one .expression e, .one .questionDot questionDot, .one .name name]
    (chainFlags questionDot e)

/-- A member given in brackets, from the expression in them on. -/
def elementAccess (start : Nat) (e : Node) (questionDot : Option Node) : Parse Node := do
  let argument ←
    if ← isAt .closeBracket then
      error .elementAccessWithoutArgument
      missing
    else fullExpression
  expect_ .closeBracket
  finish .elementAccessExpression start
    [.one .expression e, .one .questionDot questionDot, .one .argument argument]
    (chainFlags questionDot e)

/-- A link after `?.` that is no call: a member or a template. -/
def optionalLink (start : Nat) (e questionDot : Node) : Parse (Option Node) := do
  if ← atWord <||> isAt .privateIdentifier then
    return some (← propertyAccess start e questionDot)
  if ← accept .openBracket then return some (← elementAccess start e questionDot)
  if ← atTemplate then return some (← taggedTemplate start e questionDot none)
  return none

/-- A template or type arguments after an expression. -/
def trailingLink (start : Nat) (e : Node) : Parse (Option Node) := do
  if ← atTemplate then
    let (tag, args) := (splitTypeArguments? e).getD (e, none)
    return some (← taggedTemplate start tag none args)
  match ← typeArgumentsInExpression with
  | some args =>
    return some (← finish .expressionWithTypeArguments start
      [.one .typeName e, .many .typeArgument args])
  | none => return none

/-- A link without `?.` that is no call: a member, `!`, a template, or type arguments. -/
def plainLink (start : Nat) (e : Node) : Parse (Option Node) := do
  if ← accept .dot then return some (← propertyAccess start e none)
  if ← isAt .exclamation <&&> sameLine then
    next
    return some (← finish .nonNullExpression start [.one .expression e] (chainFlags none e))
  if !(← inContext (·.decorating)) then
    if ← accept .openBracket then return some (← elementAccess start e none)
  trailingLink start e

/-- One link after an expression that is no call. -/
def memberLink (start : Nat) (allowOptional : Bool) (e : Node) : Parse (Option Node) := do
  if allowOptional && (← atOptionalMember) then
    let dot ← tokenNode
    optionalLink start e dot
  else plainLink start e

/-- The links after an expression. -/
def memberLinks (start : Nat) (allowOptional : Bool) (e : Node) : Parse Node :=
  e |> iterate (memberLink start allowOptional)

/-- What `new` is applied to, with its links. -/
def newCallee : Parse Node := do
  let start ← pos
  memberLinks start false (← reach .primary)

def newExpression : Parse Node := do
  let start ← pos
  expect_ .newKw
  if ← accept .dot then
    let name ← identifierName
    return ← finish .metaProperty start [.data (.token .newKw), .one .name name]
  let callee ← newCallee
  let (callee, typeArgs) := (splitTypeArguments? callee).getD (callee, none)
  if ← isAt .questionDot then error .optionalChainAfterNew
  let args ← if ← isAt .openParen then some <$> argumentList else pure none
  finish .newExpression start
    [.one .expression callee, .optional .typeArgument typeArgs, .optional .argument args]

def noExpression : Parse Node := do
  error .expressionExpected
  missing

def decoratedClass : Parse Node := do
  let start ← pos
  let mods ← modifiers
  if ← isAt .classKw then classLike .classExpression start mods else noExpression

/-- An expression that no operator, member or call has been applied to. -/
def primary : Parse Node := do
  match ← token with
  | .numericLiteral | .bigIntLiteral | .stringLiteral | .noSubstitutionTemplateLiteral => literal
  | .thisKw | .superKw | .nullKw | .trueKw | .falseKw => tokenNode
  | .openParen => parenthesized
  | .openBracket => arrayLiteral
  | .openBrace => objectLiteral
  | .functionKw => functionExpression
  | .asyncKw => if ← followedOnLineBy .functionKw then functionExpression else identifier
  | .classKw => do classLike .classExpression (← pos) none
  | .at => decoratedClass
  | .newKw => newExpression
  | .slash | .slashEquals =>
    discard (rescan Scanner.rescanSlash)
    literal
  | .templateHead => templateExpression
  | .privateIdentifier => privateIdentifier
  | _ => if ← atIdentifier then identifier else noExpression

/-! ### Calls -/

/-- `super`, which must be called or have a member. -/
def superExpression : Parse Node := do
  let start ← pos
  let e ← tokenNode
  if ← atAny [.openParen, .dot, .openBracket] then return e
  error .superAlone
  let name ← missing
  finish .propertyAccessExpression start [.one .expression e, .one .name name]

/-- A call from its arguments on. -/
def callRest (start : Nat) (callee : Node) (questionDot : Option Node)
    (typeArgs : Option NodeList) : Parse Node := do
  let args ← argumentList
  finish .callExpression start
    [.one .expression callee, .one .questionDot questionDot, .optional .typeArgument typeArgs,
      .many .argument args]
    (chainFlags questionDot callee)

/-- A call or a template after `?.`, and whether more links may come. -/
def optionalCall (start : Nat) (e questionDot : Node) : Parse (Node × Bool) := do
  let typeArgs ← typeArgumentsInExpression
  if ← atTemplate then return (← taggedTemplate start e questionDot typeArgs, true)
  if typeArgs.isSome || (← isAt .openParen) then
    return (← callRest start e questionDot typeArgs, true)
  error .identifierExpected
  let name ← missing
  let access ← finish .propertyAccessExpression start
    [.one .expression e, .one .questionDot questionDot, .one .name name]
    (chainFlags questionDot e)
  return (access, false)

/-- What follows an expression with its links: a call, or nothing. The second part tells
whether more links may come. -/
def callLink (start : Nat) (e : Node) : Parse (Node × Bool) := do
  if ← isAt .questionDot then
    let dot ← tokenNode
    optionalCall start e dot
  else if ← isAt .openParen then
    let (callee, typeArgs) := (splitTypeArguments? e).getD (e, none)
    return (← callRest start callee none typeArgs, true)
  else return (e, false)

/-- The links after an expression up to a call and the call, if more links may come. -/
def linksAndCall (start : Nat) : Node × Bool → Parse (Option (Node × Bool))
  | (e, more) => do
    if more then
      let e ← memberLinks start true e
      return some (← callLink start e)
    else return none

/-- The links and calls after an expression. -/
def callLinks (start : Nat) (e : Node) : Parse Node := do
  let (e, _) ← (e, true) |> iterate (linksAndCall start)
  return e

/-- An expression with its members and calls. -/
def leftHandSide : Parse Node := do
  let start ← pos
  let member : Parse Node := do memberLinks start true (← primary)
  let e ← match ← token with
    | .importKw =>
      match ← peek with
      | .openParen | .lessThan => tokenNode
      | .dot =>
        next
        expect_ .dot
        let name ← identifierName
        finish .metaProperty start [.data (.token .importKw), .one .name name]
      | _ => member
    | .superKw => superExpression
    | _ => member
  callLinks start e

end EstreeLint.Grammar
