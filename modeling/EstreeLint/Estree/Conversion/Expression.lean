import EstreeLint.Estree.Conversion.Type

/-!
Conversion of expressions and of what stands in them as a pattern.
-/

namespace EstreeLint.Estree.Convert

/-! ### Arrays and objects -/

def isTarget : Convert Bool := return (← read).place.isTarget

/-- An array, or a pattern where it is assigned to. -/
def arrayLiteral (n : Node) : Convert EsNode := do
  let elements ← childrenOrHoles n .element (← isTarget)
  if ← isTarget then
    finish n .arrayPattern
      [.list .decorators [], .many .elements elements, .flag .optional false]
  else finish n .arrayExpression [.many .elements elements]

/-- An object, or a pattern where it is assigned to. -/
def objectLiteral (n : Node) : Convert EsNode := do
  let properties ← (n.partsOf .element).mapM (convertPart n · (← isTarget))
  if ← isTarget then
    finish n .objectPattern
      [.list .decorators [], .flag .optional false, .list .properties properties]
  else finish n .objectExpression [.list .properties properties]

def propertyAssignment (n : Node) : Convert EsNode := do
  let key ← child n .name
  let value ← if ← isTarget then target n .value else child n .value
  finish n .property (propertyParts (isComputed n .name) key "init" false false false value)

/-- A property that is only named, with a value for when there is none in a pattern. -/
def shorthandProperty (n : Node) : Convert EsNode := do
  let key ← child n .name
  let value ←
    if (n.part? .initializer).isSome then
      let left ← target n .name
      let right ← child n .initializer
      make none (← tokensOf n) .assignmentPattern (assignmentParts left right)
    else child n .name
  finish n .property
    (propertyParts (.flag .isComputed false) key "init" false false true value)

def spread (n : Node) : Convert EsNode := do
  if ← isTarget then
    let argument ← target n .expression
    finish n .restElement (restParts argument)
  else
    let argument ← child n .expression
    finish n .spreadElement [.one .argument argument]

/-! ### Chains -/

/-- The node without the chain around it, which then no longer answers for anything. -/
def dissolve (chain : EsNode) : Convert EsNode :=
  match chain.child? .expression with
  | some inner => do
    modify (·.redirect chain.id inner.id)
    return inner
  | none => return chain

/-- Puts a chain around a link that is optional or continues a chain. The chain that it
continues is dissolved, unless parentheses close it. -/
def wrapChain (n : Node) (link : EsNode) (f : Field) : Convert EsNode := do
  let optional := (n.part? .questionDot).isSome
  let closed := (n.part? .expression).any (·.isForm .parenthesizedExpression)
  let subject? := link.child? f
  let continues := !closed && subject?.any (·.type == .chainExpression)
  if !continues && !optional then return link
  let link ←
    if continues then
      match subject? with
      | some chain => do pure (link.setChild f (← dissolve chain))
      | none => pure link
    else pure link
  make (some n) link.range .chainExpression [.one .expression link]

def memberExpression (n : Node) : Convert EsNode := do
  let object ← child n .expression
  let computed := n.isForm .elementAccessExpression
  let property ← child n (if computed then .argument else .name)
  let member ← finish n .memberExpression
    [.flag .isComputed computed, .one .object object,
      .flag .optional (n.part? .questionDot).isSome, .one .property property]
  wrapChain n member .object

/-- A call of `import`. -/
def importExpression (n : Node) : Convert EsNode := do
  match n.partsOf .argument with
  | [] => missing n
  | source :: rest =>
    let source ← convertPart n source
    let options ← rest.head?.mapM (convertPart n ·)
    finish n .importExpression [.one? .options options, .one .source source]

def callExpression (n : Node) : Convert EsNode := do
  if (n.part? .expression).any (·.isToken .importKw) then return ← importExpression n
  let callee ← child n .expression
  let typeArgs ← typeArguments? n
  let args ← children n .argument
  let call ← finish n .callExpression
    [.list .arguments args, .one .callee callee,
      .flag .optional (n.part? .questionDot).isSome, .extra .typeArguments typeArgs]
  wrapChain n call .callee

def nonNull (n : Node) : Convert EsNode := do
  let e ← child n .expression
  let link ← finish n .tsNonNullExpression [.one .expression e]
  wrapChain n link .expression

/-! ### Calls, templates and operators -/

def newExpression (n : Node) : Convert EsNode := do
  let callee ← child n .expression
  let typeArgs ← typeArguments? n
  let args ← children n .argument
  finish n .newExpression
    [.list .arguments args, .one .callee callee, .extra .typeArguments typeArgs]

def taggedTemplate (n : Node) : Convert EsNode := do
  let tag ← child n .tag
  let typeArgs ← typeArguments? n
  let quasi ← child n .template
  finish n .taggedTemplateExpression
    [.one .quasi quasi, .one .tag tag, .extra .typeArguments typeArgs]

def templateExpression (n : Node) : Convert EsNode := do
  let (quasis, expressions) ← templateParts n
  finish n .templateLiteral [.list .expressions expressions, .list .quasis quasis]

def unaryParts (argument : EsNode) (operator : String) (before : Bool) : List Part :=
  [.one .argument argument, .text .operator operator, .flag .before before]

/-- An operator that is a word. -/
def wordOperator (n : Node) (operator : String) : Convert EsNode := do
  let argument ← child n .expression
  finish n .unaryExpression (unaryParts argument operator true)

def unaryExpression (n : Node) : Convert EsNode := do
  let some k := n.word? | unexpected n
  let some operator := k.text? | unexpected n
  let argument ← child n .operand
  if k == .plusPlus || k == .minusMinus then
    finish n .updateExpression (unaryParts argument operator (n.isForm .prefixUnaryExpression))
  else finish n .unaryExpression (unaryParts argument operator true)

/-- Expressions with commas between them. The tree nests them to the left; a nested list that is
not in parentheses is taken up into this one, which then answers for it. -/
def sequence (n : Node) : Convert EsNode := do
  let left ← child n .left
  let closed := (n.part? .left).any (·.isForm .parenthesizedExpression)
  let continues := left.type == .sequenceExpression && !closed
  let earlier := if continues then left.childrenIn .expressions else [left]
  let right ← child n .right
  let whole ← finish n .sequenceExpression [.list .expressions (earlier ++ [right])]
  if continues then modify (·.redirect left.id whole.id)
  return whole

def operationParts (left : EsNode) (operator : String) (right : EsNode) : List Part :=
  [.one .left left, .text .operator operator, .one .right right]

def binaryExpression (n : Node) : Convert EsNode := do
  let some k := (n.part? .operator).bind (·.token?) | missing n
  if k == .comma then return ← sequence n
  let some operator := k.text? | unexpected n
  if k.isAssignment then
    let left ← target n .left
    let right ← child n .right
    if (← isTarget) && k == .equals then finish n .assignmentPattern (assignmentParts left right)
    else finish n .assignmentExpression (operationParts left operator right)
  else
    let left ← child n .left
    let right ← child n .right
    let logical := [TokenKind.ampersandAmpersand, .barBar, .questionQuestion].contains k
    finish n (if logical then .logicalExpression else .binaryExpression)
      (operationParts left operator right)

def conditionalExpression (n : Node) : Convert EsNode := do
  let test ← child n .condition
  let whenTrue ← child n .whenTrue
  let whenFalse ← child n .whenFalse
  finish n .conditionalExpression
    [.one .alternate whenFalse, .one .consequent whenTrue, .one .test test]

def yieldExpression (n : Node) : Convert EsNode := do
  let argument ← child? n .expression
  finish n .yieldExpression
    [.one? .argument argument, .flag .delegate (n.part? .asterisk).isSome]

/-- An expression with a type: before it, or after a word. -/
def typedExpression (n : Node) (type : NodeType) : Convert EsNode := do
  if n.isForm .typeAssertionExpression then
    let t ← child n .type
    let e ← child n .expression
    finish n type [.one .expression e, .one .type t]
  else
    let e ← child n .expression
    let t ← child n .type
    finish n type [.one .expression e, .one .type t]

/-- A word with a property that no object has. -/
def metaProperty (n : Node) : Convert EsNode := do
  let some word := n.word?.bind TokenKind.text? | unexpected n
  let (_, r) ← tokenAt (← tokensOf n).start
  let metaName ← make none r .identifier (identifierParts word)
  let property ← child n .name
  finish n .metaProperty [.one .metaName metaName, .one .property property]

/-- An expression with type arguments that is not called. -/
def instantiation (n : Node) : Convert EsNode := do
  let e ← child n .typeName
  let some args ← typeArguments? n | missing n
  finish n .tsInstantiationExpression [.one .expression e, .one .typeArguments args]

/-- A type that a class or an interface names in its heritage. -/
def heritageType (n : Node) (type : NodeType) : Convert EsNode := do
  let e ← child n .typeName
  let args ← typeArguments? n
  finish n type [.one .expression e, .extra .typeArguments args]

end EstreeLint.Estree.Convert
