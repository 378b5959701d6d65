import EstreeLint.Grammar.State

/-!
Modifiers and decorators before a declaration, a member or a parameter. Words that can be
modifiers can also be names, so what follows decides.
-/

namespace EstreeLint.Grammar

open Parse

/-- The next token is of the given kind. -/
def followedBy (k : TokenKind) : Parse Bool := return (← peek) == k

/-- The next token is of the given kind and on the same line. -/
def followedOnLineBy (k : TokenKind) : Parse Bool := lookAhead do
  next
  sameLine <&&> isAt k

/-- The token at hand can follow a modifier. -/
def canFollowModifier : Parse Bool :=
  atAny [.openBracket, .openBrace, .asterisk, .dotDotDot, .privateIdentifier] <||> atLiteralName

/-- The token at hand can follow `export` where that is a modifier. -/
def canFollowExport : Parse Bool :=
  isAt .at <||>
    (return !(← atAny [.asterisk, .asKw, .openBrace])) <&&> canFollowModifier

/-- The token at hand can follow `default` where that is a modifier. -/
def canFollowDefault : Parse Bool := do
  match ← token with
  | .classKw | .functionKw | .interfaceKw | .at => return true
  | .abstractKw => followedOnLineBy .classKw
  | .asyncKw => followedOnLineBy .functionKw
  | _ => return false

/-- The word at hand is a modifier, by what follows it. -/
def isModifierHere : Parse Bool := lookAhead do
  match ← token with
  | .constKw => followedBy .enumKw
  | .exportKw =>
    match ← nextToken with
    | .defaultKw =>
      next
      canFollowDefault
    | .typeKw =>
      next
      canFollowExport
    | _ => canFollowExport
  | .defaultKw =>
    next
    canFollowDefault
  | .staticKw =>
    next
    canFollowModifier
  | _ =>
    next
    sameLine <&&> canFollowModifier

def decorator : Parse Node := do
  let start ← pos
  expect_ .at
  let e ← withContext { decorating := true } {} (reach .leftHandSide)
  finish .decorator start [.one .expression e]

/-- A decorator or a modifier, if one is at hand. -/
def modifier : Parse (Option Node) := do
  let k ← token
  if k == .at then return some (← decorator)
  if k.isModifier && k != .inKw && k != .outKw then
    if ← isModifierHere then return some (← tokenNode)
  return none

/-- The decorators and modifiers at hand, if there are any. -/
def modifiers : Parse (Option NodeList) := do
  let start ← pos
  let nodes ← many modifier
  listFrom? start nodes

/-- A token among the modifiers. -/
def hasModifier (list : Option NodeList) (k : TokenKind) : Bool :=
  list.any fun l => l.nodes.any (·.isToken k)

end EstreeLint.Grammar
