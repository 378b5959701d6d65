import EstreeLint.Estree.Conversion.Class

/-!
Conversion of statements.
-/

namespace EstreeLint.Estree.Convert

/-- The forms whose block may start with directives. -/
def isFunctionForm : NodeKind → Bool
  | .form f =>
    [Form.functionDeclaration, .functionExpression, .arrowFunction, .methodDeclaration,
      .constructor, .getAccessor, .setAccessor].contains f
  | .token _ => false

def block (n : Node) : Convert EsNode := do
  let statements ← body n .element ((← read).place.parent.any isFunctionForm)
  finish n .blockStatement [.list .body statements]

/-- A statement with an optional expression. -/
def optionalExpression (n : Node) (type : NodeType) (f : Field) (r : Role) : Convert EsNode := do
  let e ← child? n r
  finish n type [.one? f e]

def ifStatement (n : Node) : Convert EsNode := do
  let test ← child n .condition
  let consequent ← child n .thenStatement
  let alternate ← child? n .elseStatement
  finish n .ifStatement
    [.one? .alternate alternate, .one .consequent consequent, .one .test test]

/-! ### Loops -/

def doStatement (n : Node) : Convert EsNode := do
  let body ← child n .statement
  let test ← child n .condition
  finish n .doWhileStatement [.one .body body, .one .test test]

def whileStatement (n : Node) : Convert EsNode := do
  let test ← child n .condition
  let body ← child n .statement
  finish n .whileStatement [.one .body body, .one .test test]

def forStatement (n : Node) : Convert EsNode := do
  let init ← child? n .initializer
  let test ← child? n .condition
  let update ← child? n .incrementor
  let body ← child n .statement
  finish n .forStatement
    [.one .body body, .one? .init init, .one? .test test, .one? .update update]

/-- A loop over the keys or the values of an object. What it assigns is a target. -/
def forEachStatement (n : Node) : Convert EsNode := do
  let left ← target n .initializer
  let right ← child n .expression
  let body ← child n .statement
  let parts := [.one .body body, .one .left left, .one .right right]
  if n.isForm .forOfStatement then
    finish n .forOfStatement (.flag .isAwait (n.part? .await).isSome :: parts)
  else finish n .forInStatement parts

/-! ### Labels and choices -/

def withStatement (n : Node) : Convert EsNode := do
  let object ← child n .head
  let body ← child n .statement
  finish n .withStatement [.one .body body, .one .object object]

def labeledStatement (n : Node) : Convert EsNode := do
  let label ← child n .label
  let body ← child n .statement
  finish n .labeledStatement [.one .body body, .one .label label]

def switchStatement (n : Node) : Convert EsNode := do
  let discriminant ← child n .expression
  let cases ← children (← require n .caseBlock) .element
  finish n .switchStatement [.list .cases cases, .one .discriminant discriminant]

def caseClause (n : Node) : Convert EsNode := do
  let test ← child? n .expression
  let consequent ← children n .statement
  finish n .switchCase [.list .consequent consequent, .one? .test test]

def tryStatement (n : Node) : Convert EsNode := do
  let block ← child n .tryBlock
  let handler ← child? n .catchClause
  let finalizer ← child? n .finallyBlock
  finish n .tryStatement
    [.one .block block, .one? .finalizer finalizer, .one? .handler handler]

/-! ### Variables -/

/-- The name that a declaration binds, with the type it is given. -/
def boundName (n : Node) : Convert EsNode := do
  let id ← target n .name
  let type ← declaredType? n
  declare id type none

def catchClause (n : Node) : Convert EsNode := do
  let param ← (n.part? .variableDeclaration).mapM boundName
  let body ← child n .block
  finish n .catchClause [.one .body body, .one? .param param]

/-- The words that declare variables, by the flags of their list. -/
def declarationWord (f : NodeFlags) : String :=
  if f.isUsing && f.isConst then "await using"
  else if f.isUsing then "using"
  else if f.isConst then "const"
  else if f.isLet then "let"
  else "var"

def declarationParts (list : Node) (declared : Bool) (declarations : List EsNode) : List Part :=
  [.list .declarations declarations, .flag .isDeclared declared,
    .text .kind (declarationWord list.flags)]

def variableStatement (n : Node) : Convert EsNode := do
  let list ← require n .declarationList
  let declarations ← children list .element
  let declaration ← finish n .variableDeclaration
    (declarationParts list (hasWord n .declareKw) declarations)
  wrapExport n declaration

/-- Declarations in the head of a loop. -/
def variableDeclarationList (n : Node) : Convert EsNode := do
  let declarations ← children n .element
  finish n .variableDeclaration (declarationParts n false declarations)

def variableDeclarator (n : Node) : Convert EsNode := do
  let id ← boundName n
  let init ← child? n .initializer
  finish n .variableDeclarator
    [.flag .definite (n.part? .exclamation).isSome, .one .id id, .one? .init init]

end EstreeLint.Estree.Convert
