import EstreeLint.Estree.Conversion.Module
import EstreeLint.Estree.Conversion.Pattern

/-!
Conversion of functions: declarations, expressions, methods and signatures.
-/

namespace EstreeLint.Estree.Convert

/-- The parts of a function other than its name and its modifiers. -/
structure Signature where
  typeParameters : Option EsNode
  params : List EsNode
  returnType : Option EsNode

def signature (n : Node) : Convert Signature := do
  let typeParameters ← typeParameters? n
  let params ← parameters n
  let returnType ← declaredType? n
  return { typeParameters, params, returnType }

def signatureParts (s : Signature) : List Part :=
  [.list .params s.params, .extra .returnType s.returnType,
    .extra .typeParameters s.typeParameters]

def isGenerator (n : Node) : Bool := (n.part? .asterisk).isSome

def isAsync (n : Node) : Part := .flag .isAsync (hasWord n .asyncKw)

/-- The parts of a function with a body or none. -/
def functionParts (async : Part) (declared generator : Bool) (id body : Option EsNode)
    (s : Signature) : List Part :=
  [async, .one? .body body, .flag .isDeclared declared, .flag .expression false,
    .flag .generator generator, .one? .id id] ++ signatureParts s

/-- A function that is declared only, or without a body, is a type of its own. -/
def functionDeclaration (n : Node) : Convert EsNode := do
  let id ← child? n .name
  let s ← signature n
  let body ← child? n .body
  let declared := hasWord n .declareKw
  let type := if declared || body.isNone then NodeType.tsDeclareFunction else .functionDeclaration
  let declaration ← finish n type
    (functionParts (isAsync n) declared (isGenerator n) id body s)
  wrapExport n declaration

def functionExpression (n : Node) : Convert EsNode := do
  let id ← child? n .name
  let s ← signature n
  let body ← child? n .body
  finish n .functionExpression (functionParts (isAsync n) false (isGenerator n) id body s)

def arrowFunction (n : Node) : Convert EsNode := do
  let s ← signature n
  let isBlock := (n.part? .body).any (·.isForm .block)
  let body ← child n .body
  finish n .arrowFunctionExpression
    ([isAsync n, .one .body body, .flag .expression (!isBlock), .flag .generator false,
      .value .id .null] ++ signatureParts s)

/-- Where the list of parts with a role starts, with the delimiter before it. -/
def openingOf (n : Node) (r : Role) : Nat := (n.list? r).elim 0 (·.pos) - 1

/-- The function that a method holds. It starts at the parenthesis before its parameters. -/
def methodValue (n : Node) (async : Part) (generator : Bool) : Convert EsNode := do
  let s ← signature n
  let body ← child? n .body
  let type :=
    if body.isNone then NodeType.tsEmptyBodyFunctionExpression else .functionExpression
  make none (Span.between (openingOf n .parameter) n.stop) type
    (functionParts async false generator none body s)

/-! ### Signatures -/

/-- What a method is called by: reading, writing or a call. -/
def methodKind (n : Node) : String :=
  if n.isForm .getAccessor then "get" else if n.isForm .setAccessor then "set" else "method"

def propertySignature (n : Node) : Convert EsNode := do
  let key ← child n .name
  let type ← declaredType? n
  finish n .tsPropertySignature
    [accessibility n, isComputed n .name, .one .key key,
      .flag .optional ((n.part? .mark).any (·.isToken .question)),
      .flag .readonly (hasWord n .readonlyKw), .flag .isStatic (hasWord n .staticKw),
      .extra .type type]

def methodSignature (n : Node) : Convert EsNode := do
  let key ← child n .name
  let s ← signature n
  finish n .tsMethodSignature
    [accessibility n, isComputed n .name, .one .key key, .text .kind (methodKind n),
      .flag .optional (n.part? .question).isSome, .list .params s.params,
      .flag .readonly (hasWord n .readonlyKw), .extra .returnType s.returnType,
      .flag .isStatic (hasWord n .staticKw), .extra .typeParameters s.typeParameters]

def indexSignature (n : Node) : Convert EsNode := do
  let parameters ← children n .parameter
  let type ← declaredType? n
  finish n .tsIndexSignature
    [accessibility n, .list .parameters parameters, .flag .readonly (hasWord n .readonlyKw),
      .flag .isStatic (hasWord n .staticKw), .extra .type type]

/-- A signature that is called, without a name. -/
def callSignature (n : Node) (type : NodeType) : Convert EsNode := do
  finish n type (signatureParts (← signature n))

/-- The type of a function or of a constructor. -/
def functionType (n : Node) : Convert EsNode := do
  let s ← signature n
  if n.isForm .functionType then finish n .tsFunctionType (signatureParts s)
  else
    finish n .tsConstructorType
      (.flag .isAbstract (hasWord n .abstractKw) :: signatureParts s)

end EstreeLint.Estree.Convert
