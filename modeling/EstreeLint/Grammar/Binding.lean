import EstreeLint.Grammar.Modifier
import EstreeLint.Grammar.Name

/-!
Patterns that bind names, parameters, and type parameters.
-/

namespace EstreeLint.Grammar

open Parse

/-- A name with a value for when there is none, or a pattern, under a key of an object. -/
def objectBindingElement : Parse Node := do
  let start ← pos
  let dots ← optionalToken .dotDotDot
  let startsWithName ← atIdentifier
  let key ← propertyName
  if startsWithName && !(← isAt .colon) then
    let value ← initializer
    finish .bindingElement start [.one .dots dots, .one .name key, .one .initializer value]
  else
    expect_ .colon
    let name ← reach .binding
    let value ← initializer
    finish .bindingElement start
      [.one .dots dots, .one .propertyName key, .one .name name, .one .initializer value]

def arrayBindingElement : Parse Node := do
  let start ← pos
  if ← isAt .comma then node (.form .omittedExpression) start start
  else
    let dots ← optionalToken .dotDotDot
    let name ← reach .binding
    let value ← initializer
    finish .bindingElement start [.one .dots dots, .one .name name, .one .initializer value]

/-- A name or a pattern. -/
def binding : Parse Node := do
  let start ← pos
  match ← token with
  | .openBracket =>
    let elements ← enclosedList .openBracket .closeBracket arrayBindingElement
    finish .arrayBindingPattern start [.many .element elements]
  | .openBrace =>
    let elements ← enclosedList .openBrace .closeBrace objectBindingElement
    finish .objectBindingPattern start [.many .element elements]
  | _ => identifier

def parameter : Parse Node := do
  let start ← pos
  let mods ← modifiers
  let dots ← optionalToken .dotDotDot
  let name ← if ← isAt .thisKw then identifierName else reach .binding
  let question ← optionalToken .question
  let type ← declaredType
  let value ← initializer
  finish .parameter start
    [.optional .modifier mods, .one .dots dots, .one .name name, .one .question question,
      .one .declaredType type, .one .initializer value]

def parameters : Parse NodeList := enclosedList .openParen .closeParen parameter

/-- A type after a word, if the word is there. -/
def typeAfter (k : TokenKind) : Parse (Option Node) := do
  if ← accept k then return some (← reach .type) else return none

/-- A word that says how a type parameter varies, if one is at hand. -/
def varianceWord : Parse (Option Node) := do
  if ← atAny [.constKw, .inKw, .outKw] <&&> lookAhead (do next; atWord) then
    return some (← tokenNode)
  else return none

def typeParameter : Parse Node := do
  let start ← pos
  let words ← many varianceWord
  let mods ← listFrom? start words
  let name ← identifier
  let constraint ← typeAfter .extendsKw
  let default ← typeAfter .equals
  finish .typeParameter start
    [.optional .modifier mods, .one .name name, .one .constraint constraint,
      .one .default default]

/-- Type parameters in angle brackets, if there are any. -/
def typeParameters : Parse (Option NodeList) := do
  if ← isAt .lessThan then return some (← enclosedList .lessThan .greaterThan typeParameter)
  else return none

def typeArguments : Parse NodeList := enclosedList .lessThan .greaterThan (reach .type)

end EstreeLint.Grammar
