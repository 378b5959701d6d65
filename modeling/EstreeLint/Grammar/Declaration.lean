import EstreeLint.Grammar.Module

/-!
Declarations of variables, functions, classes, types and modules.
-/

namespace EstreeLint.Grammar

open Parse

/-! ### Variables -/

def variableDeclaration : Parse Node := do
  let start ← pos
  let name ← binding
  let exclamation ← if ← isAt .exclamation <&&> sameLine then some <$> tokenNode else pure none
  let type ← declaredType
  let value ← initializer
  finish .variableDeclaration start
    [.one .name name, .one .exclamation exclamation, .one .declaredType type,
      .one .initializer value]

/-- What the words before variables say of them. -/
def variableFlags : TokenKind → NodeFlags
  | .letKw => { isLet := true }
  | .constKw => { isConst := true }
  | .usingKw => { isUsing := true }
  | .awaitKw => { isConst := true, isUsing := true }
  | _ => {}

def variableDeclarationList : Parse Node := do
  let start ← pos
  let opening ← token
  if opening == .awaitKw then next
  next
  let listStart ← pos
  let list ← listFrom listStart (← separated variableDeclaration)
  finish .variableDeclarationList start [.many .element list] (variableFlags opening)

def variableStatement (start : Nat) (mods : Option NodeList) : Parse Node := do
  let list ← variableDeclarationList
  semicolon
  finish .variableStatement start [.optional .modifier mods, .one .declarationList list]

/-! ### Functions and types -/

def functionDeclaration (start : Nat) (mods : Option NodeList) : Parse Node := do
  expect_ .functionKw
  let asterisk ← optionalToken .asterisk
  let nameless ← (return hasModifier mods .defaultKw) <&&> return !(← atIdentifier)
  let name ← if nameless then pure none else some <$> identifier
  let parts ← withContext (functionContext asterisk.isSome (hasModifier mods .asyncKw))
    functionScope (signature bodyOrSemicolon)
  finish .functionDeclaration start
    ([.optional .modifier mods, .one .asterisk asterisk, .one .name name] ++ parts)

def interfaceDeclaration (start : Nat) (mods : Option NodeList) : Parse Node := do
  expect_ .interfaceKw
  let name ← identifier
  let typeParams ← typeParameters
  let heritage ← heritageClauses
  let members ← typeMembers
  finish .interfaceDeclaration start
    [.optional .modifier mods, .one .name name, .optional .typeParameter typeParams,
      .optional .heritage heritage, .many .member members]

def typeAliasDeclaration (start : Nat) (mods : Option NodeList) : Parse Node := do
  expect_ .typeKw
  let name ← identifier
  let typeParams ← typeParameters
  expect_ .equals
  let type ← reach .type
  semicolon
  finish .typeAliasDeclaration start
    [.optional .modifier mods, .one .name name, .optional .typeParameter typeParams,
      .one .type type]

def enumMember : Parse Node := do
  let start ← pos
  let name ← propertyName
  let value ← initializer
  finish .enumMember start [.one .name name, .one .value value]

def enumDeclaration (start : Nat) (mods : Option NodeList) : Parse Node := do
  expect_ .enumKw
  let name ← identifier
  let members ← enclosedList .openBrace .closeBrace enumMember
  finish .enumDeclaration start
    [.optional .modifier mods, .one .name name, .many .member members]

/-! ### What begins a declaration -/

/-- A binding follows `let`. -/
def atLetDeclaration : Parse Bool := lookAhead do
  next
  atIdentifier <||> atAny [.openBracket, .openBrace]

/-- `using` and a name follow `await` on its line. -/
def atAwaitUsing : Parse Bool := lookAhead do
  next
  isAt .usingKw <&&> sameLine <&&> identifierFollowsOnLine

/-- Whether the word at hand begins a declaration; nothing if that hangs on the next word,
which is then at hand. -/
def declarationVerdict : Parse (Option Bool) := do
  match ← token with
  | .varKw | .letKw | .constKw | .functionKw | .classKw | .enumKw | .at | .exportKw =>
    return some true
  | .usingKw | .interfaceKw | .typeKw => return some (← identifierFollowsOnLine)
  | .moduleKw | .namespaceKw =>
    next
    return some (← sameLine <&&> (atWord <||> isAt .stringLiteral))
  | .abstractKw | .accessorKw | .asyncKw | .declareKw | .privateKw | .protectedKw | .publicKw
  | .readonlyKw =>
    next
    if ← afterLineBreak then return some false else return none
  | .globalKw =>
    next
    return some (← atAny [.openBrace, .identifier, .exportKw])
  | .importKw =>
    next
    return some (← atAny [.stringLiteral, .asterisk, .openBrace] <||> atWord)
  | .staticKw =>
    next
    return none
  | _ => return some false

/-- The verdict on the next word, where the words before it have given none. -/
def nextVerdict : Option Bool → Parse (Option (Option Bool))
  | some _ => return none
  | none => return some (← declarationVerdict)

/-- The words at hand begin a declaration. -/
def atDeclaration : Parse Bool := lookAhead do
  let verdict ← none |> iterate nextVerdict
  return verdict == some true

/-- A declaration after its modifiers. -/
def declarationRest (start : Nat) (mods : Option NodeList) : Parse Node := do
  match ← token with
  | .varKw | .letKw | .constKw | .usingKw | .awaitKw => variableStatement start mods
  | .functionKw => functionDeclaration start mods
  | .classKw => classLike .classDeclaration start mods
  | .interfaceKw => interfaceDeclaration start mods
  | .typeKw => typeAliasDeclaration start mods
  | .enumKw => enumDeclaration start mods
  | .globalKw | .moduleKw | .namespaceKw => moduleDeclaration start mods
  | .importKw => importDeclaration start mods
  | .exportKw =>
    next
    exportRest start mods
  | _ =>
    error .declarationExpected
    let elements := mods.getD ⟨[], { pos := start, stop := start }⟩
    finish .missingDeclaration start [.many .element elements]

def declaration : Parse Node := do
  let start ← pos
  let mods ← modifiers
  declarationRest start mods

end EstreeLint.Grammar
