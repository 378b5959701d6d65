import EstreeLint.Grammar.State

/-!
Names of properties, dotted names, and the small parts that follow a name.
-/

namespace EstreeLint.Grammar

open Parse

/-- The name of a property: a word, a literal, a private name, or an expression in brackets. -/
def propertyName : Parse Node := do
  match ← token with
  | .stringLiteral | .numericLiteral | .bigIntLiteral => literal
  | .privateIdentifier => privateIdentifier
  | .openBracket =>
    let start ← pos
    next
    let e ← withContext {} { noIn := true } (reach (.assignment true))
    expect_ .closeBracket
    finish .computedPropertyName start [.one .expression e]
  | _ => identifierName

/-- A name after a dot. -/
def memberName : Parse Node := do
  if ← isAt .privateIdentifier then privateIdentifier else identifierName

/-- A name behind a dot, joined to the names before it. -/
def dottedName (start : Nat) (entity : Node) : Parse (Option Node) := do
  if ← accept .dot then
    let right ← memberName
    return some (← finish .qualifiedName start [.one .left entity, .one .right right])
  else return none

/-- Names with dots between them. -/
def entityName (allowReserved : Bool) : Parse Node := do
  let start ← pos
  let first ← if allowReserved then identifierName else identifier
  first |> iterate (dottedName start)

/-- A name or a string, as modules export them. -/
def exportedName : Parse Node := do
  if ← isAt .stringLiteral then literal else identifierName

/-- A type after a colon, if there is a colon. -/
def declaredType : Parse (Option Node) := do
  if ← accept .colon then return some (← reach .type) else return none

/-- A value after `=`, if there is one. -/
def initializer : Parse (Option Node) := do
  if ← accept .equals then return some (← reach (.assignment true)) else return none

/-- The piece of a template after a substitution. -/
def templatePiece : Parse Node := do
  if ← isAt .closeBrace then
    discard (rescan Scanner.rescanTemplate)
    literal
  else
    expect_ .closeBrace
    let here ← pos
    node (.token .templateTail) here here [.data (.literal "" true)]

/-- One substitution of a template with the piece after it, and whether another follows. -/
def templateSpan (form : Form) (substitution : Parse Node) : Parse (Node × Bool) := do
  let start ← pos
  let e ← substitution
  let piece ← templatePiece
  let span ← finish form start [.one .expression e, .one .literal piece]
  return (span, piece.isToken .templateMiddle)

/-- Another substitution after those that have been read, if one follows. -/
def nextSpan (form : Form) (substitution : Parse Node) :
    List Node × Bool → Parse (Option (List Node × Bool))
  | (spans, more) => do
    if more then
      let (span, more) ← templateSpan form substitution
      return some (span :: spans, more)
    else return none

/-- A template with substitutions. -/
def template (form spanForm : Form) (substitution : Parse Node) : Parse Node := do
  let start ← pos
  let head ← literal
  let spansStart ← pos
  let first ← templateSpan spanForm substitution
  let spans ← ([first.1], first.2) |> iterate (nextSpan spanForm substitution)
  let list ← listFrom spansStart spans.1.reverse
  finish form start [.one .head head, .many .span list]

/-- A name and a value that say how a module is to be loaded. -/
def importAttribute : Parse Node := do
  let start ← pos
  let name ← exportedName
  expect_ .colon
  let value ← reach (.assignment true)
  finish .importAttribute start [.one .name name, .one .value value]

/-- All the names and values that say how a module is to be loaded. `asKey` is set where the word
that opens them is itself a key of an object. -/
def importAttributes (asKey : Bool) : Parse Node := do
  let start ← pos
  let opening ← token
  next
  if asKey then expect_ .colon
  let elements ← enclosedList .openBrace .closeBrace importAttribute
  finish .importAttributes start [.data (.token opening), .many .element elements]

end EstreeLint.Grammar
