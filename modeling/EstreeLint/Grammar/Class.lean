import EstreeLint.Grammar.Type

/-!
Classes and the clauses that name what they extend and implement.
-/

namespace EstreeLint.Grammar

open Parse

/-- An expression and its type arguments apart, if it has the form of both. -/
def splitTypeArguments? (e : Node) : Option (Node × Option NodeList) :=
  if e.isForm .expressionWithTypeArguments then
    (e.part? .typeName).map fun name => (name, e.list? .typeArgument)
  else none

/-- A type named in a heritage clause. -/
def heritageType : Parse Node := do
  let start ← pos
  let e ← reach .leftHandSide
  let (name, args) ← match splitTypeArguments? e with
    | some split => pure split
    | none =>
      if ← isAt .lessThan then pure (e, some (← typeArguments)) else pure (e, none)
  finish .expressionWithTypeArguments start
    [.one .typeName name, .optional .typeArgument args]

def heritageClause : Parse Node := do
  let start ← pos
  let opening ← token
  next
  let typesStart ← pos
  let types ← listFrom typesStart (← separated heritageType)
  finish .heritageClause start [.data (.token opening), .many .element types]

/-- A heritage clause, if one is at hand. -/
def heritageClause? : Parse (Option Node) := do
  if ← atAny [.extendsKw, .implementsKw] then return some (← heritageClause) else return none

def heritageClauses : Parse (Option NodeList) := do
  let start ← pos
  let clauses ← many heritageClause?
  listFrom? start clauses

/-- A class, as a declaration or an expression. -/
def classLike (form : Form) (start : Nat) (mods : Option NodeList) : Parse Node := do
  expect_ .classKw
  let named ← atIdentifier <&&> return !(← isAt .implementsKw)
  let name ← if named then some <$> identifier else pure none
  let typeParams ← typeParameters
  let heritage ← heritageClauses
  expect_ .openBrace
  let members ← listUntil [.closeBrace] classMember
  expect_ .closeBrace
  finish form start
    [.optional .modifier mods, .one .name name, .optional .typeParameter typeParams,
      .optional .heritage heritage, .many .member members]

end EstreeLint.Grammar
