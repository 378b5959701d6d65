import EstreeLint.Grammar.Binding

/-!
Blocks, and what functions of every kind have in common: type parameters, parameters, a return
type, and a body.
-/

namespace EstreeLint.Grammar

open Parse

/-- Statements in braces. -/
def braced (form : Form) : Parse Node := do
  let start ← pos
  expect_ .openBrace
  let statements ← listUntil [.closeBrace] (reach? .statement)
  expect_ .closeBrace
  finish form start [.many .element statements]

def block : Parse Node := braced .block

/-- The body of a function, or the semicolon in its place. -/
def bodyOrSemicolon : Parse (Option Node) := do
  if ← isAt .openBrace then return some (← block)
  else
    semicolon
    return none

/-- The mark that closes a member of a type. -/
def typeMemberEnd : Parse Unit := do
  if ← accept .comma then return
  semicolon

def thisType : Parse Node := do
  let start ← pos
  next
  finish .thisType start

/-- A type, or a predicate on the type of a parameter. -/
def typeOrPredicate : Parse Node := do
  let start ← pos
  let asserting ← isAt .assertsKw <&&> lookAhead do
    next
    sameLine <&&> (atIdentifier <||> isAt .thisKw)
  if asserting then
    let asserts ← tokenNode
    let name ← if ← isAt .thisKw then thisType else identifier
    let type ← typeAfter .isKw
    return ← finish .typePredicate start
      [.one .asserts asserts, .one .parameterName name, .one .type type]
  if ← atIdentifier <&&> followedOnLineBy .isKw then
    let name ← identifier
    expect_ .isKw
    let type ← reach .type
    return ← finish .typePredicate start [.one .parameterName name, .one .type type]
  reach .type

def returnType : Parse (Option Node) := do
  if ← accept .colon then return some (← typeOrPredicate) else return none

/-- Conditions in force in a function with these marks. -/
def functionContext (generator async : Bool) : Context :=
  { yielding := generator, awaiting := async }

/-- Conditions that a function does not take over from around it. -/
def functionScope : Context := { yielding := true, awaiting := true }

/-- A signature with what closes it, as parts of a function. -/
def signature (ending : Parse (Option Node)) : Parse (List Part) := do
  let typeParams ← typeParameters
  let params ← parameters
  let type ← returnType
  let body ← ending
  return [.optional .typeParameter typeParams, .many .parameter params,
    .one .declaredType type, .one .body body]

/-- A signature that ends like a member of a type. -/
def typeSignature : Parse (List Part) := signature do
  typeMemberEnd
  return none

end EstreeLint.Grammar
