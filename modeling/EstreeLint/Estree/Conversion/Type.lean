import EstreeLint.Estree.Conversion.Leaf

/-!
Conversion of types.
-/

namespace EstreeLint.Estree.Convert

/-! ### Marks and lists around types -/

/-- The type that a part of `n` declares, with the mark before it: a colon, or the arrow of a
function type. -/
def declaredType? (n : Node) : Convert (Option EsNode) :=
  (n.part? .declaredType).mapM fun type => do
    let width := if n.isForm .functionType || n.isForm .constructorType then 2 else 1
    let inner ← convertPart n type
    make none (Span.between (type.pos - width) inner.range.stop) .tsTypeMark [.one .type inner]

/-- From the opening to the closing angle bracket of a list. -/
def angleRange (list : NodeList) : Convert Span := do
  let close ← findToken list.stop .greaterThan
  return Span.between (list.pos - 1) (max close.stop list.stop)

/-- A list in angle brackets, if the node has it. -/
def angleList? (n : Node) (r : Role) (type : NodeType) : Convert (Option EsNode) :=
  (n.list? r).mapM fun list => do
    let params ← children n r
    make none (← angleRange list) type [.list .params params]

def typeParameters? (n : Node) : Convert (Option EsNode) :=
  angleList? n .typeParameter .tsTypeParameterDeclaration

def typeArguments? (n : Node) : Convert (Option EsNode) :=
  angleList? n .typeArgument .tsTypeParameterInstantiation

/-- A node with one type in it. -/
def wrappedType (n : Node) (type : NodeType) (f : Field) : Convert EsNode := do
  let inner ← child n .type
  finish n type [.one f inner]

/-- A node with a list of types in it. -/
def listedTypes (n : Node) (type : NodeType) (f : Field) : Convert EsNode := do
  let elements ← children n .element
  finish n type [.list f elements]

/-! ### References and predicates -/

def typeParameter (n : Node) : Convert EsNode := do
  let name ← child n .name
  let constraint ← child? n .constraint
  let default ← child? n .default
  finish n .tsTypeParameter
    [.flag .isConst (hasWord n .constKw), .one? .constraint constraint, .one? .default default,
      .flag .isIn (hasWord n .inKw), .one .name name, .flag .isOut (hasWord n .outKw)]

def typeReference (n : Node) : Convert EsNode := do
  let name ← child n .typeName
  let args ← typeArguments? n
  finish n .tsTypeReference [.extra .typeArguments args, .one .typeName name]

def typeQuery (n : Node) : Convert EsNode := do
  let name ← child n .typeName
  let args ← typeArguments? n
  finish n .tsTypeQuery [.one .exprName name, .extra .typeArguments args]

def typePredicate (n : Node) : Convert EsNode := do
  let name ← child n .parameterName
  let type ← (← child? n .type).mapM fun inner =>
    make none inner.range .tsTypeMark [.one .type inner]
  finish n .tsTypePredicate
    [.flag .asserts (n.part? .asserts).isSome, .one .parameterName name, .one? .type type]

def qualifiedName (n : Node) : Convert EsNode := do
  let left ← child n .left
  let right ← child n .right
  finish n .tsQualifiedName [.one .left left, .one .right right]

/-! ### Composite types -/

def conditionalType (n : Node) : Convert EsNode := do
  let checked ← child n .checkType
  let bound ← child n .extendsType
  let whenTrue ← child n .trueType
  let whenFalse ← child n .falseType
  finish n .tsConditionalType
    [.one .checkType checked, .one .extendsType bound, .one .falseType whenFalse,
      .one .trueType whenTrue]

def typeOperator (n : Node) : Convert EsNode := do
  let some operator := n.word?.bind TokenKind.text? | unexpected n
  let inner ← child n .type
  finish n .tsTypeOperator [.text .operator operator, .one .type inner]

def indexedAccessType (n : Node) : Convert EsNode := do
  let object ← child n .objectType
  let index ← child n .indexType
  finish n .tsIndexedAccessType [.one .indexType index, .one .objectType object]

/-- A mark of a mapped type: present, or with a sign. -/
def mappedMark (n : Node) (r : Role) (f : Field) : Part :=
  match (n.part? r).bind (·.token?) with
  | none => .absent
  | some .plus => .text f "+"
  | some .minus => .text f "-"
  | some _ => .flag f true

def mappedType (n : Node) : Convert EsNode := do
  let param ← require n .typeParameter
  let key ← child param .name
  let constraint ← child param .constraint
  let nameType ← child? n .nameType
  let type ← child? n .type
  finish n .tsMappedType
    [.one .constraint constraint, .one .key key, .one? .nameType nameType,
      mappedMark n .question .optional, mappedMark n .readonlyMark .readonly, .extra .type type]

/-- A literal as a type. The word `null` is a type of its own. -/
def literalType (n : Node) : Convert EsNode := do
  let inner ← require n .type
  if inner.isToken .nullKw then finish inner .tsNullKeyword
  else
    let literal ← child n .type
    finish n .tsLiteralType [.one .literal literal]

/-- A named element of a tuple. One that takes the rest starts at its name. -/
def namedTupleMember (n : Node) : Convert EsNode := do
  let label ← child n .name
  let type ← child n .type
  let member ← finish n .tsNamedTupleMember
    [.one .elementType type, .one .label label,
      .flag .optional (n.part? .question).isSome]
  if (n.part? .dots).isNone then return member
  let member ← restart member label.range.start
  finish n .tsRestType [.one .type member]

/-- The pieces of a template, and what stands between them. -/
def templateParts (n : Node) : Convert (List EsNode × List EsNode) := do
  let head ← child n .head
  let rest ← (n.partsOf .span).mapM fun span => do
    let e ← child span .expression
    let piece ← child span .literal
    return (e, piece)
  return (head :: rest.map (·.2), rest.map (·.1))

def templateLiteralType (n : Node) : Convert EsNode := do
  let (quasis, types) ← templateParts n
  finish n .tsTemplateLiteralType [.list .quasis quasis, .list .types types]

/-! ### Types from other modules -/

/-- The object with the attributes of an import, with the braces and the word around them. -/
def importOptions (n argument attributes : Node) : Convert EsNode := do
  let (_, comma) ← tokenAt argument.stop
  let (_, opening) ← tokenAt comma.stop
  let (wordKind, wordRange) ← tokenAt opening.stop
  let (afterKind, after) ← tokenAt attributes.stop
  let closing ← if afterKind == .comma then Prod.snd <$> tokenAt after.stop else pure after
  let name := if wordKind == .assertKw then "assert" else "with"
  let key ← make none wordRange .identifier (identifierParts name)
  let value ← convertPart n attributes
  let property ← make none (Span.between wordRange.start attributes.stop) .property
    (propertyParts (.flag .isComputed false) key "init" false false false value)
  make none (Span.between opening.start closing.stop) .objectExpression
    [.list .properties [property]]

def importType (n : Node) : Convert EsNode := do
  let whole ← tokensOf n
  let r ←
    if n.isFlagged then
      let (_, typeOf) ← tokenAt whole.start
      let (_, import_) ← tokenAt typeOf.stop
      pure (Span.between import_.start n.stop)
    else pure whole
  let argumentNode ← require n .argument
  let argument ← convertPart n argumentNode
  let options ← (n.part? .attributes).mapM (importOptions n argumentNode)
  let qualifier ← child? n .qualifier
  let args ← typeArguments? n
  let type ← make (some n) r .tsImportType
    [.one .argument argument, .one? .options options, .one? .qualifier qualifier,
      .extra .typeArguments args]
  if n.isFlagged then finish n .tsTypeQuery [.one .exprName type] else return type

end EstreeLint.Estree.Convert
