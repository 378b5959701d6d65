import EstreeLint.Estree.Conversion.Function

/-!
Conversion of classes with their members, and of interfaces, type aliases and enums.
-/

namespace EstreeLint.Estree.Convert

/-! ### Heritage -/

/-- The clauses of a heritage that start with a word. -/
def clausesOf (n : Node) (k : TokenKind) : List Node :=
  (n.partsOf .heritage).filter (·.word? == some k)

/-- The class that a class extends, with its type arguments. Only the first name of the first
clause counts. -/
def superClass (clause : Node) : Convert (Option EsNode × Option EsNode) := do
  match (clause.partsOf .element).head? with
  | none => return (none, none)
  | some first =>
    let e ← child first .typeName
    let args ← typeArguments? first
    return (some e, args)

/-- The types that a clause names. -/
def heritageTypes (clause : Node) (type : NodeType) : Convert (List EsNode) :=
  (clause.partsOf .element).mapM (heritageType · type)

/-- What the clauses before have given. -/
structure Heritage where
  superClass : Option EsNode := none
  superTypeArguments : Option EsNode := none
  sawExtends : Bool := false
  implements : List EsNode := []

/-- Takes up a clause of a class. A second clause of a kind that has given something is left out. -/
def heritageStep (h : Heritage) (clause : Node) : Convert Heritage := do
  if clause.word? == some .extendsKw then
    if h.sawExtends then return h
    let (superClass, superTypeArguments) ← superClass clause
    return { h with superClass, superTypeArguments, sawExtends := true }
  else if h.implements.isEmpty then
    return { h with implements := ← heritageTypes clause .tsClassImplements }
  else return h

/-! ### Classes -/

/-- A body in braces that the tree keeps as a list only. -/
def memberBody (n : Node) (type : NodeType) (f : Field) (members : List EsNode) :
    Convert EsNode :=
  make none (Span.between (openingOf n .member) n.stop) type [.list f members]

/-- A class. Semicolons between members are left out. -/
def classLike (n : Node) (type : NodeType) : Convert EsNode := do
  let decorators ← decorators n
  let id ← child? n .name
  let typeParameters ← typeParameters? n
  let heritage ← (n.partsOf .heritage).foldlM heritageStep {}
  let kept := (n.partsOf .member).filter (!·.isForm .semicolonClassElement)
  let members ← kept.mapM (convertPart n ·)
  let body ← memberBody n .classBody .body members
  finish n type
    [.flag .isAbstract (hasWord n .abstractKw), .one .body body,
      .flag .isDeclared (hasWord n .declareKw), .list .decorators decorators, .one? .id id,
      .list .implements heritage.implements, .one? .superClass heritage.superClass,
      .extra .superTypeArguments heritage.superTypeArguments,
      .extra .typeParameters typeParameters]

def classDeclaration (n : Node) : Convert EsNode := do
  wrapExport n (← classLike n .classDeclaration)

/-! ### Members -/

/-- The type of node for a property of a class. -/
def propertyType : (isAccessor isAbstract : Bool) → NodeType
  | true, true => .tsAbstractAccessorProperty
  | true, false => .accessorProperty
  | false, true => .tsAbstractPropertyDefinition
  | false, false => .propertyDefinition

/-- A property of a class. An abstract one has no value, even if one is written. -/
def propertyDeclaration (n : Node) : Convert EsNode := do
  let decorators ← decorators n
  let key ← child n .name
  let type ← declaredType? n
  let isAbstract := hasWord n .abstractKw
  let value ← if isAbstract then pure none else child? n .initializer
  let mark := (n.part? .mark).bind (·.token?)
  finish n (propertyType (hasWord n .accessorKw) isAbstract)
    [accessibility n, isComputed n .name, .flag .isDeclared (hasWord n .declareKw),
      .list .decorators decorators, .flag .definite (mark == some .exclamation), .one .key key,
      .flag .optional (mark == some .question), .flag .isOverride (hasWord n .overrideKw),
      .flag .readonly (hasWord n .readonlyKw), .flag .isStatic (hasWord n .staticKw),
      .extra .type type, .one? .value value]

def methodType (n : Node) : NodeType :=
  if hasWord n .abstractKw then .tsAbstractMethodDefinition else .methodDefinition

/-- A method or an accessor of an object. -/
def objectMethod (n : Node) : Convert EsNode := do
  let key ← child n .name
  let value ← methodValue n (isAsync n) (isGenerator n)
  let isMethod := methodKind n == "method"
  finish n .property
    (propertyParts (isComputed n .name) key (if isMethod then "init" else methodKind n) isMethod
      (n.part? .question).isSome false value)

/-- A method or an accessor of a class. -/
def classMethod (n : Node) : Convert EsNode := do
  let decorators ← decorators n
  let key ← child n .name
  let value ← methodValue n (isAsync n) (isGenerator n)
  finish n (methodType n)
    [accessibility n, isComputed n .name, .list .decorators decorators, .one .key key,
      .text .kind (methodKind n), .flag .optional (n.part? .question).isSome,
      .flag .isOverride (hasWord n .overrideKw), .flag .isStatic (hasWord n .staticKw),
      .one .value value]

/-- A method or an accessor, by what it belongs to. -/
def method (n : Node) : Convert EsNode := do
  let parent := (← read).place.parent
  let inType := parent == some (.form .interfaceDeclaration) || parent == some (.form .typeLiteral)
  if inType && !n.isForm .methodDeclaration then methodSignature n
  else if parent == some (.form .objectLiteralExpression) then objectMethod n
  else classMethod n

/-- A constructor. Its key is the token after the modifiers: a word, or a string of that word. -/
def constructorMember (n : Node) : Convert EsNode := do
  let keyPos := ((n.partsOf .modifier).map (·.stop)).max?.getD n.pos
  let (keyToken, keyRange) ← tokenAt keyPos
  let value ← methodValue n (.flag .isAsync false) false
  let key ←
    if keyToken == .stringLiteral then
      make none keyRange .literal (literalParts (← sourceOf keyRange) (.text "constructor"))
    else make none keyRange .identifier (identifierParts "constructor")
  let isStatic := hasWord n .staticKw
  finish n (methodType n)
    [accessibility n, .flag .isComputed false, .list .decorators [], .one .key key,
      .text .kind (if isStatic then "method" else "constructor"), .flag .optional false,
      .flag .isOverride false, .flag .isStatic isStatic, .one .value value]

def staticBlock (n : Node) : Convert EsNode := do
  let statements ← body (← require n .body) .element false
  finish n .staticBlock [.list .body statements]

/-! ### Interfaces, aliases and enums -/

def interfaceDeclaration (n : Node) : Convert EsNode := do
  let id ← child n .name
  let typeParameters ← typeParameters? n
  let extended ← (clausesOf n .extendsKw).mapM (heritageTypes · .tsInterfaceHeritage)
  let members ← children n .member
  let body ← memberBody n .tsInterfaceBody .body members
  let declaration ← finish n .tsInterfaceDeclaration
    [.one .body body, .flag .isDeclared (hasWord n .declareKw), .list .extended extended.flatten,
      .one .id id, .extra .typeParameters typeParameters]
  wrapExport n declaration

def typeAlias (n : Node) : Convert EsNode := do
  let id ← child n .name
  let typeParameters ← typeParameters? n
  let type ← child n .type
  let declaration ← finish n .tsTypeAliasDeclaration
    [.flag .isDeclared (hasWord n .declareKw), .one .id id, .one .type type,
      .extra .typeParameters typeParameters]
  wrapExport n declaration

def enumDeclaration (n : Node) : Convert EsNode := do
  let id ← child n .name
  let members ← children n .member
  let body ← memberBody n .tsEnumBody .members members
  let declaration ← finish n .tsEnumDeclaration
    [.one .body body, .flag .isConst (hasWord n .constKw),
      .flag .isDeclared (hasWord n .declareKw), .one .id id]
  wrapExport n declaration

def enumMember (n : Node) : Convert EsNode := do
  let id ← child n .name
  let initializer ← child? n .value
  finish n .tsEnumMember
    [isComputed n .name, .one .id id, .one? .initializer initializer]

end EstreeLint.Estree.Convert
