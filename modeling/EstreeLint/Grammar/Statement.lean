import EstreeLint.Grammar.Declaration
import EstreeLint.Grammar.Element
import EstreeLint.Grammar.Operation

/-!
Statements, and the parse that ties the rules together.
-/

namespace EstreeLint.Grammar

open Parse

def expressionOrLabeled : Parse Node := do
  let start ← pos
  let startsWithName ← atIdentifier
  let e ← expression
  let labels ← (return startsWithName && e.isToken .identifier) <&&> accept .colon
  if labels then
    let body ← reach? .statement
    finish .labeledStatement start [.one .label e, .one .statement body]
  else
    semicolon
    finish .expressionStatement start [.one .expression e]

def condition : Parse Node := do
  expect_ .openParen
  let e ← expression
  expect_ .closeParen
  return e

def ifStatement : Parse Node := do
  let start ← pos
  next
  let e ← condition
  let whenTrue ← reach? .statement
  let whenFalse ← if ← accept .elseKw then reach? .statement else pure none
  finish .ifStatement start
    [.one .condition e, .one .thenStatement whenTrue, .one .elseStatement whenFalse]

def doStatement : Parse Node := do
  let start ← pos
  next
  let body ← reach? .statement
  expect_ .whileKw
  let e ← condition
  discard (accept .semicolon)
  finish .doStatement start [.one .statement body, .one .condition e]

def whileStatement : Parse Node := do
  let start ← pos
  next
  let e ← condition
  let body ← reach? .statement
  finish .whileStatement start [.one .condition e, .one .statement body]

/-- Variables are declared at the head of a loop. -/
def atVariables : Parse Bool := do
  match ← token with
  | .varKw | .constKw => return true
  | .letKw => atLetDeclaration
  | .usingKw => identifierFollowsOnLine
  | .awaitKw => atAwaitUsing
  | _ => return false

/-- An expression, unless one of the given tokens stands in its place. -/
def expressionUnless (stops : List TokenKind) : Parse (Option Node) := do
  if ← atAny stops then return none else return some (← fullExpression)

/-- A loop over what an expression gives, behind `of` or `in`. -/
def forEach (start : Nat) (await head : Option Node) (isOf : Bool) : Parse Node := do
  let e ← if isOf then withContext {} { noIn := true } (reach (.assignment true))
    else fullExpression
  expect_ .closeParen
  let body ← reach? .statement
  finish (if isOf then .forOfStatement else .forInStatement) start
    [.one .await await, .one .initializer head, .one .expression e, .one .statement body]

/-- A loop with a condition and a step, behind its head. -/
def forClauses (start : Nat) (head : Option Node) : Parse Node := do
  expect_ .semicolon
  let e ← expressionUnless [.semicolon, .closeParen]
  expect_ .semicolon
  let step ← expressionUnless [.closeParen]
  expect_ .closeParen
  let body ← reach? .statement
  finish .forStatement start
    [.one .initializer head, .one .condition e, .one .incrementor step, .one .statement body]

def forRest (start : Nat) (await head : Option Node) : Parse Node := do
  let isOf ← if await.isSome then expect .ofKw else accept .ofKw
  if ← (return isOf) <||> accept .inKw then forEach start await head isOf
  else forClauses start head

/-- What a loop declares or gives a value to first. -/
def forHead : Parse Node := do
  let declares ← atVariables
  withContext { noIn := true } {} (if declares then variableDeclarationList else expression)

def forStatement : Parse Node := do
  let start ← pos
  next
  let await ← optionalToken .awaitKw
  expect_ .openParen
  if ← isAt .semicolon then forRest start await none
  else
    let head ← forHead
    forRest start await head

def jump (form : Form) : Parse Node := do
  let start ← pos
  next
  let labeled ← (return !(← atStatementEnd)) <&&> atIdentifier
  let label ← if labeled then some <$> identifier else pure none
  semicolon
  finish form start [.one .label label]

def returnStatement : Parse Node := do
  let start ← pos
  next
  let e ← if ← atStatementEnd then pure none else some <$> expression
  semicolon
  finish .returnStatement start [.one .expression e]

def withStatement : Parse Node := do
  let start ← pos
  next
  let e ← condition
  let body ← reach? .statement
  finish .withStatement start [.one .head e, .one .statement body]

def clauseBody (form : Form) (start : Nat) (e : Option Node) : Parse Node := do
  expect_ .colon
  let statements ← listUntil [.caseKw, .defaultKw, .closeBrace] (reach? .statement)
  finish form start [.one .expression e, .many .statement statements]

/-- A clause of a `switch`; nothing where none begins. -/
def clause : Parse (Option Node) := do
  let start ← pos
  if ← accept .caseKw then
    let e ← expression
    return some (← clauseBody .caseClause start e)
  if ← accept .defaultKw then return some (← clauseBody .defaultClause start none)
  error .caseExpected
  return none

def caseBlock : Parse Node := do
  let start ← pos
  expect_ .openBrace
  let clauses ← listUntil [.closeBrace] clause
  expect_ .closeBrace
  finish .caseBlock start [.many .element clauses]

def switchStatement : Parse Node := do
  let start ← pos
  next
  let e ← condition
  let cases ← caseBlock
  finish .switchStatement start [.one .expression e, .one .caseBlock cases]

def throwStatement : Parse Node := do
  let start ← pos
  next
  let e ←
    if ← afterLineBreak then
      error .lineBreak
      missing
    else expression
  semicolon
  finish .throwStatement start [.one .expression e]

/-- The variable that a `catch` binds, from inside the parenthesis on. -/
def caughtVariable : Parse Node := do
  let start ← pos
  let name ← binding
  let type ← declaredType
  let bound ← finish .variableDeclaration start [.one .name name, .one .declaredType type]
  expect_ .closeParen
  return bound

def catchClause : Parse Node := do
  let start ← pos
  next
  let bound ← if ← accept .openParen then some <$> caughtVariable else pure none
  let body ← block
  finish .catchClause start [.one .variableDeclaration bound, .one .block body]

def tryStatement : Parse Node := do
  let start ← pos
  next
  let tried ← block
  let caught ← if ← isAt .catchKw then some <$> catchClause else pure none
  let final ←
    if caught.isNone || (← isAt .finallyKw) then
      expect_ .finallyKw
      some <$> block
    else pure none
  finish .tryStatement start
    [.one .tryBlock tried, .one .catchClause caught, .one .finallyBlock final]

/-- A statement, by the token that begins it. -/
def anyStatement : Parse Node := do
  let start ← pos
  match ← token with
  | .semicolon =>
    next
    finish .emptyStatement start
  | .openBrace => block
  | .varKw => variableStatement start none
  | .letKw => if ← atLetDeclaration then variableStatement start none else expressionOrLabeled
  | .usingKw =>
    if ← identifierFollowsOnLine then variableStatement start none else expressionOrLabeled
  | .awaitKw => if ← atAwaitUsing then variableStatement start none else expressionOrLabeled
  | .functionKw => functionDeclaration start none
  | .classKw => classLike .classDeclaration start none
  | .ifKw => ifStatement
  | .doKw => doStatement
  | .whileKw => whileStatement
  | .forKw => forStatement
  | .continueKw => jump .continueStatement
  | .breakKw => jump .breakStatement
  | .returnKw => returnStatement
  | .withKw => withStatement
  | .switchKw => switchStatement
  | .throwKw => throwStatement
  | .tryKw => tryStatement
  | .debuggerKw =>
    next
    semicolon
    finish .debuggerStatement start
  | .at => declaration
  | .importKw =>
    if [TokenKind.openParen, .dot].contains (← peek) then expressionOrLabeled
    else if ← atDeclaration then declaration
    else expressionOrLabeled
  | .asyncKw | .interfaceKw | .typeKw | .moduleKw | .namespaceKw | .declareKw | .constKw
  | .enumKw | .exportKw | .privateKw | .protectedKw | .publicKw | .abstractKw | .accessorKw
  | .staticKw | .readonlyKw | .globalKw =>
    if ← atDeclaration then declaration else expressionOrLabeled
  | _ => expressionOrLabeled

/-- A statement; where it would be nested too deep, a token is passed over instead. -/
def statement : Parse (Option Node) :=
  nested (do next; return none) (some <$> anyStatement)

/-! ### The parse as a whole -/

/-- The rule for a goal. -/
def rule : Goal → Parse (Option Node)
  | .statement => statement
  | .assignment returnType => some <$> assignment returnType
  | .binary above => some <$> binary above
  | .simpleUnary => some <$> simpleUnary
  | .leftHandSide => some <$> leftHandSide
  | .primary => some <$> primary
  | .element inExpression => some <$> element inExpression
  | .type => some <$> type
  | .typeOperator => some <$> typeOperator
  | .binding => some <$> binding
  | .innerNamespace namespaceWord => some <$> innerNamespace namespaceWord

/-- No goal is reached. -/
def tooDeep : Parse (Option Node) := do
  giveUp
  return none

/-- Reaches goals with rules nested at most `fuel` deep. -/
def runner (fuel : Nat) (remembers : Bool := true) : Runner :=
  match fuel with
  | 0 => ⟨fun _ => tooDeep.run .idle, fun _ => tooDeep.extends_run .idle, remembers⟩
  | fuel + 1 =>
    ⟨fun g => (rule g).run (runner fuel remembers),
      fun g => (rule g).extends_run (runner fuel remembers), remembers⟩

/-- The whole text. The end of it is a node of its own, which is no part of the tree. -/
def sourceFile : Parse Node := do
  let statements ← listUntil [] (reach? .statement)
  let scanner := (← current).scanner
  discard (node (.token .endOfFile) scanner.fullStart scanner.tokenEnd)
  node (.form .sourceFile) 0 (Text.bytes scanner.source) [.many .statement statements]

/-- The state before the first token of a text. -/
def State.ofSource (source : Source) (variant : Variant) : State where
  scanner := (Scanner.ofSource source variant true).scan
  limit := Text.bytes source + 2

/-- Deep enough for any text of the given number of bytes: a rule reaches only few others before
it takes a token. -/
def fuelFor (bytes : Nat) : Nat := 32 * (bytes + 2)

/-- The tree of a text, and the state after it has been read. Where `remembers` is not set, a
parenthesis that has been ruled out is tried again. -/
def parseSource (source : Source) (variant : Variant) (remembers : Bool := true) : Node × State :=
  sourceFile.run (runner (fuelFor (Text.bytes source)) remembers) (State.ofSource source variant)

end EstreeLint.Grammar
