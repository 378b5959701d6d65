import EstreeLint.Grammar.Expression

/-!
Operators, arrow functions and assignments.
-/

namespace EstreeLint.Grammar

open Parse

/-! ### Unary and binary operators -/

/-- A word or a literal follows on the line of the word at hand. -/
def operandFollowsOnLine : Parse Bool := lookAhead do
  next
  sameLine <&&> atLiteralName

/-- `await` as an operator. -/
def atAwait : Parse Bool := isAt .awaitKw <&&> (inContext (·.awaiting) <||> operandFollowsOnLine)

/-- `yield` as an operator. -/
def atYield : Parse Bool := isAt .yieldKw <&&> (inContext (·.yielding) <||> operandFollowsOnLine)

/-- `<` that opens an element. -/
def atElement : Parse Bool := isJsx <&&> isAt .lessThan <&&> lookAhead do
  next
  atWord <||> isAt .greaterThan

/-- An expression with `++` or `--` before or after it, or neither. -/
def updateExpression : Parse Node := do
  let start ← pos
  let operator ← token
  if operator == .plusPlus || operator == .minusMinus then
    next
    let operand ← reach .leftHandSide
    return ← finish .prefixUnaryExpression start [.data (.token operator), .one .operand operand]
  if ← atElement then return ← reach (.element true)
  let operand ← leftHandSide
  if ← atAny [.plusPlus, .minusMinus] <&&> sameLine then
    let operator ← token
    next
    finish .postfixUnaryExpression start [.data (.token operator), .one .operand operand]
  else return operand

/-- A unary operator with its operand. -/
def applied (form : Form) (parts : List Part) (r : Role) : Parse Node := do
  let start ← pos
  next
  let e ← reach .simpleUnary
  finish form start (parts ++ [.one r e])

/-- A type in angle brackets before an expression. -/
def typeAssertion : Parse Node := do
  let start ← pos
  next
  let type ← reach .type
  expect_ .greaterThan
  let e ← reach .simpleUnary
  finish .typeAssertionExpression start [.one .type type, .one .expression e]

/-- An expression with its unary operators. -/
def simpleUnary : Parse Node := do
  let operator ← token
  match operator with
  | .plus | .minus | .tilde | .exclamation =>
    applied .prefixUnaryExpression [.data (.token operator)] .operand
  | .deleteKw => applied .deleteExpression [] .expression
  | .typeOfKw => applied .typeOfExpression [] .expression
  | .voidKw => applied .voidExpression [] .expression
  | .lessThan => if ← isJsx then updateExpression else typeAssertion
  | .awaitKw => if ← atAwait then applied .awaitExpression [] .expression else updateExpression
  | _ => updateExpression

/-- The operator at hand is taken by an operation whose left operand was read with operators
tighter than `above`. -/
def takesOperator (above : Nat) (operator : TokenKind) : Bool :=
  let tightness := binaryPrecedence operator
  tightness != 0 && if operator == .asteriskAsterisk then above ≤ tightness else above < tightness

/-- Applies the operator at hand to what stands before it. -/
def operatorLink (above start : Nat) (left : Node) : Parse (Option Node) := do
  let operator ← rescan Scanner.rescanGreater
  if !takesOperator above operator then return none
  if operator == .inKw && (← inContext (·.noIn)) then return none
  if operator == .asKw || operator == .satisfiesKw then
    if ← afterLineBreak then return none
    next
    let type ← reach .type
    let form := if operator == .asKw then Form.asExpression else .satisfiesExpression
    return some (← finish form start [.one .expression left, .one .type type])
  let mark ← tokenNode
  let right ← reach (.binary (binaryPrecedence operator))
  return some (← finish .binaryExpression start
    [.one .left left, .one .operator mark, .one .right right])

/-- Binary operators tighter than `above`, and their operands. -/
def binary (above : Nat) : Parse Node := do
  let start ← pos
  (← simpleUnary) |> iterate (operatorLink above start)

/-! ### Arrow functions -/

/-- Whether a parenthesis opens the parameters of an arrow function. -/
inductive ArrowGuess where
  | no
  | yes
  | maybe

/-- The guess from the tokens after `(`. -/
def arrowGuessInParens (second : TokenKind) : Parse ArrowGuess := do
  match second with
  | .closeParen =>
    next
    if ← atAny [.equalsGreaterThan, .colon, .openBrace] then return .yes else return .no
  | .openBracket | .openBrace => return .maybe
  | .dotDotDot => return .yes
  | _ =>
  if second.isModifier && second != .asyncKw then
    if ← lookAhead (do next; atIdentifier) then
      if (← nextToken) == .asKw then return .no else return .yes
  if !(← atIdentifier) && second != .thisKw then return .no
  match ← nextToken with
  | .colon | .comma | .equals | .closeParen => return .maybe
  | .question =>
    next
    if ← atAny [.colon, .comma, .equals, .closeParen] then return .yes else return .no
  | _ => return .no

/-- The guess from the tokens after `<`. Where elements may stand, only a comma, a default or a
constraint tells type parameters. -/
def arrowGuessInAngles : Parse ArrowGuess := do
  if !(← atIdentifier <||> isAt .constKw) then return .no
  if ← isJsx then
    let isArrow ← lookAhead do
      discard (accept .constKw)
      match ← nextToken with
      | .extendsKw =>
        next
        return !(← atAny [.equals, .greaterThan, .slash])
      | .comma | .equals => return true
      | _ => return false
    return if isArrow then .yes else .no
  return .maybe

def arrowGuess : Parse ArrowGuess := lookAhead do
  if ← accept .asyncKw then
    if ← afterLineBreak then return .no
  match ← token with
  | .openParen => arrowGuessInParens (← nextToken)
  | .lessThan =>
    next
    arrowGuessInAngles
  | _ => return .no

/-- The body of an arrow function. -/
def arrowBody (async returnType : Bool) : Parse Node := do
  let add : Context := { awaiting := async }
  if ← isAt .openBrace then withContext add functionScope block
  else withContext add { awaiting := true } (reach (.assignment returnType))

/-- An arrow function with its parameters in parentheses; nothing where the text turns out to be
something else. Where `sure` is set, faults are reported instead. -/
def parenthesizedArrow (sure returnTypeAllowed : Bool) : Parse (Option Node) := do
  let start ← pos
  let mods ← asyncModifier
  let before ← errorCount
  let clean : Parse Bool := return sure || (← errorCount) == before
  let (typeParams, params) ← withContext { awaiting := mods.isSome } { awaiting := true } do
    let typeParams ← typeParameters
    let params ← if ← isAt .openParen then some <$> parameters else pure none
    return (typeParams, params)
  let some params := params | return none
  if !(← clean) then return none
  let hasColon ← isAt .colon
  let type ← returnType
  if !(← clean) then return none
  let last ← token
  if !sure && last != .equalsGreaterThan then return none
  let arrow ← optionalToken .equalsGreaterThan
  if arrow.isNone then expect_ .equalsGreaterThan
  let body ←
    if last == .equalsGreaterThan || last == .openBrace then
      arrowBody mods.isSome returnTypeAllowed
    else identifier
  if !returnTypeAllowed && hasColon && !(← isAt .colon) then return none
  return some (← finish .arrowFunction start
    [.optional .modifier mods, .optional .typeParameter typeParams, .many .parameter params,
      .one .declaredType type, .one .arrow arrow, .one .body body])

/-- An arrow function with parentheses, if one stands here. A parenthesis that may open one is
tried once: where none stands is remembered. -/
def parenthesizedArrow? (returnTypeAllowed : Bool) : Parse (Option Node) := do
  match ← arrowGuess with
  | .no => return none
  | .yes => attempt (parenthesizedArrow true returnTypeAllowed)
  | .maybe => unlessRuledOut (parenthesizedArrow false returnTypeAllowed)

/-- An arrow function from its arrow on, where the one parameter has been read. -/
def simpleArrow (start : Nat) (name : Node) (mods : Option NodeList) (returnType : Bool) :
    Parse Node := do
  let param ← node (.form .parameter) name.pos name.stop [.one .name name]
  let arrow ← tokenNode
  let body ← arrowBody mods.isSome returnType
  finish .arrowFunction start
    [.optional .modifier mods,
      .many .parameter ⟨[param], { pos := param.pos, stop := param.stop }⟩,
      .one .arrow arrow, .one .body body]

/-- `async`, a name and an arrow stand here on one line. -/
def atAsyncArrow : Parse Bool := isAt .asyncKw <&&> lookAhead do
  next
  if ← sameLine <&&> atIdentifier then
    next
    sameLine <&&> isAt .equalsGreaterThan
  else return false

/-- An arrow function of `async`, a name and an arrow, if they stand here. -/
def asyncArrow? (returnType : Bool) : Parse (Option Node) := do
  if ← atAsyncArrow then
    let start ← pos
    let mods ← asyncModifier
    let name ← withContext { awaiting := true } {} identifier
    return some (← simpleArrow start name mods returnType)
  else return none

/-! ### Assignments -/

def yieldExpression : Parse Node := do
  let start ← pos
  next
  let hasOperand ← sameLine <&&> (isAt .asterisk <||> return isExpressionStart (← token))
  if hasOperand then
    let asterisk ← optionalToken .asterisk
    let e ← reach (.assignment true)
    finish .yieldExpression start [.one .asterisk asterisk, .one .expression e]
  else finish .yieldExpression start

/-- The branches after a condition, if there are any. -/
def conditionalRest (start : Nat) (condition : Node) (returnType : Bool) : Parse Node := do
  if ← accept .question then
    let whenTrue ← withContext {} { noIn := true } (reach (.assignment false))
    let whenFalse ←
      if ← expect .colon then reach (.assignment returnType) else missing
    finish .conditionalExpression start
      [.one .condition condition, .one .whenTrue whenTrue, .one .whenFalse whenFalse]
  else return condition

/-- An assignment or what binds tighter, where no arrow function with `async` or parentheses
begins. -/
def assignmentRest (returnType : Bool) : Parse Node := do
  let start ← pos
  let left ← binary 0
  if left.isToken .identifier && (← isAt .equalsGreaterThan) then
    return ← simpleArrow start left none returnType
  if isLeftHandSide left.kind then
    if (← rescan Scanner.rescanGreater).isAssignment then
      let operator ← tokenNode
      let right ← reach (.assignment returnType)
      return ← finish .binaryExpression start
        [.one .left left, .one .operator operator, .one .right right]
  conditionalRest start left returnType

/-- An assignment, a conditional, a function, or what binds tighter. -/
def assignment (returnType : Bool) : Parse Node := nested missing do
  if ← atYield then return ← yieldExpression
  if let some arrow ← parenthesizedArrow? returnType then return arrow
  if let some arrow ← asyncArrow? returnType then return arrow
  assignmentRest returnType

end EstreeLint.Grammar
