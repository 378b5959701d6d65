import EstreeLint.Grammar.Expression

/-!
Imports, exports and namespaces.
-/

namespace EstreeLint.Grammar

open Parse

/-! ### Imports -/

/-- The name of a module, which must be a string. -/
def moduleSpecifier : Parse Node := do
  if ← isAt .stringLiteral then literal
  else
    error .stringExpected
    expression

/-- Attributes after the name of a module, if there are any. -/
def importAttributes? : Parse (Option Node) := do
  if ← isAt .withKw <||> (isAt .assertKw <&&> sameLine) then
    return some (← importAttributes false)
  else return none

/-- `type` before a specifier is a mark and not the name itself. -/
def atTypeOnlySpecifier : Parse Bool := isAt .typeKw <&&> lookAhead do
  match ← nextToken with
  | .comma | .closeBrace => return false
  | .asKw =>
    next
    atAny [.comma, .closeBrace, .asKw]
  | .stringLiteral => return true
  | k => return k.isIdentifierOrKeyword

def specifier (form : Form) : Parse Node := do
  let start ← pos
  let typeOnly ← atTypeOnlySpecifier
  if typeOnly then next
  let first ← exportedName
  if ← accept .asKw then
    let name ← exportedName
    finish form start [.data (.flag typeOnly), .one .propertyName first, .one .name name]
  else finish form start [.data (.flag typeOnly), .one .name first]

/-- Specifiers in braces. -/
def specifiers (form each : Form) : Parse Node := do
  let start ← pos
  let list ← enclosedList .openBrace .closeBrace (specifier each)
  finish form start [.many .element list]

/-- A name for all that a module exports. -/
def namespaceImport : Parse Node := do
  let start ← pos
  next
  expect_ .asKw
  let name ← identifier
  finish .namespaceImport start [.one .name name]

/-- `type` after `import` is a mark and not a name. -/
def atTypeOnlyImport : Parse Bool := isAt .typeKw <&&> lookAhead do
  match ← nextToken with
  | .openBrace | .asterisk => return true
  | .fromKw => followedBy .fromKw
  | .equals => return false
  | k => return k.isIdentifierOrKeyword

/-- What an imported name stands for: a module, or a dotted name. -/
def moduleReference : Parse Node := do
  if ← isAt .requireKw <&&> followedBy .openParen then
    let start ← pos
    next
    expect_ .openParen
    let e ← moduleSpecifier
    expect_ .closeParen
    finish .externalModuleReference start [.one .expression e]
  else entityName false

/-- The bindings of an import beside its default name. -/
def namedBindings : Parse (Option Node) := do
  match ← token with
  | .asterisk => return some (← namespaceImport)
  | .openBrace => return some (← specifiers .namedImports .importSpecifier)
  | _ =>
    error (.expected .openBrace)
    return none

/-- An import from its clause on. -/
def importRest (start : Nat) (mods : Option NodeList) (clause : Option Node) : Parse Node := do
  let source ← moduleSpecifier
  let attributes ← importAttributes?
  semicolon
  finish .importDeclaration start
    [.optional .modifier mods, .one .importClause clause, .one .moduleSpecifier source,
      .one .attributes attributes]

/-- The clause of an import with the names it brings in. -/
def importClauseRest (start : Nat) (typeOnly : Bool) (name : Option Node) : Parse Node := do
  let bindings ←
    if ← (return name.isNone) <||> accept .comma then namedBindings else pure none
  finish .importClause start
    [.data (.flag typeOnly), .one .name name, .one .namedBindings bindings]

/-- What stands behind `import`: a clause, or the name before `=`. The second part tells which,
with the mark `type` of the name. -/
def importHead : Parse (Node × Option Bool) := do
  let start ← pos
  let typeOnly ← atTypeOnlyImport
  if typeOnly then next
  if ← atIdentifier <&&> return !(← isAt .fromKw <&&> followedBy .stringLiteral) then
    let name ← identifier
    if ← accept .equals then return (name, some typeOnly)
    return (← importClauseRest start typeOnly name, none)
  else return (← importClauseRest start typeOnly none, none)

def importDeclaration (start : Nat) (mods : Option NodeList) : Parse Node := do
  expect_ .importKw
  if ← isAt .stringLiteral then return ← importRest start mods none
  let (head, assigned) ← importHead
  match assigned with
  | some typeOnly =>
    let target ← moduleReference
    semicolon
    finish .importEqualsDeclaration start
      [.optional .modifier mods, .data (.flag typeOnly), .one .name head,
        .one .moduleReference target]
  | none =>
    expect_ .fromKw
    importRest start mods head

/-! ### Exports -/

def exportAssignment (start : Nat) (mods : Option NodeList) : Parse Node := do
  let isEquals ← isAt .equals
  next
  let e ← reach (.assignment true)
  semicolon
  finish .exportAssignment start
    [.optional .modifier mods, .data (.flag isEquals), .one .expression e]

def namespaceExportDeclaration (start : Nat) : Parse Node := do
  next
  expect_ .namespaceKw
  let name ← identifier
  semicolon
  finish .namespaceExportDeclaration start [.one .name name]

/-- What follows `from` in an export, if it must or may be there. -/
def exportSource : Parse Node := do
  expect_ .fromKw
  moduleSpecifier

/-- What is exported, and from where. -/
def exportClause : Parse (Option Node × Option Node) := do
  if ← isAt .asterisk then
    let start ← pos
    next
    if ← accept .asKw then
      let name ← exportedName
      let clause ← finish .namespaceExport start [.one .name name]
      return (some clause, some (← exportSource))
    else return (none, some (← exportSource))
  else
    let clause ← specifiers .namedExports .exportSpecifier
    if ← isAt .fromKw <||> (isAt .stringLiteral <&&> sameLine) then
      return (some clause, some (← exportSource))
    else return (some clause, none)

def exportDeclaration (start : Nat) (mods : Option NodeList) : Parse Node := do
  let typeOnly ← isAt .typeKw <&&>
    return [TokenKind.openBrace, .asterisk].contains (← peek)
  if typeOnly then next
  let (clause, source) ← exportClause
  let attributes ← if source.isSome then importAttributes? else pure none
  semicolon
  finish .exportDeclaration start
    [.optional .modifier mods, .data (.flag typeOnly), .one .exportClause clause,
      .one .moduleSpecifier source, .one .attributes attributes]

/-- An export from what follows the word on. -/
def exportRest (start : Nat) (mods : Option NodeList) : Parse Node := do
  match ← token with
  | .equals | .defaultKw => exportAssignment start mods
  | .asKw => namespaceExportDeclaration start
  | _ => exportDeclaration start mods

/-! ### Namespaces -/

def moduleBlock : Parse Node := braced .moduleBlock

/-- The body of a module, or the semicolon in its place. -/
def moduleBodyOrSemicolon : Parse (Option Node) := do
  if ← isAt .openBrace then return some (← moduleBlock)
  else
    semicolon
    return none

/-- A module from its name on, with one declaration inside another for each name. -/
def namespaceRest (start : Nat) (mods : Option NodeList) (flags : NodeFlags) : Parse Node := do
  let name ← identifier
  let body ←
    if ← accept .dot then reach (.innerNamespace flags.namespaceWord) else moduleBlock
  finish .moduleDeclaration start
    [.optional .modifier mods, .one .name name, .one .body body] flags

def innerNamespace (namespaceWord : Bool) : Parse Node := do
  namespaceRest (← pos) none { nestedNamespace := true, namespaceWord }

def moduleDeclaration (start : Nat) (mods : Option NodeList) : Parse Node := do
  let opening ← token
  if opening == .globalKw then
    let name ← identifierName
    let body ← moduleBodyOrSemicolon
    return ← finish .moduleDeclaration start
      [.optional .modifier mods, .one .name name, .one .body body]
      { globalAugmentation := true }
  let flags : NodeFlags := { namespaceWord := opening == .namespaceKw }
  next
  if ← isAt .stringLiteral then
    let name ← literal
    let body ← moduleBodyOrSemicolon
    return ← finish .moduleDeclaration start
      [.optional .modifier mods, .one .name name, .one .body body] flags
  namespaceRest start mods flags

end EstreeLint.Grammar
