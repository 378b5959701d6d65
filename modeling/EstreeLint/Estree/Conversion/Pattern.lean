import EstreeLint.Estree.Conversion.Expression

/-!
Conversion of parameters and of patterns that bind names.
-/

namespace EstreeLint.Estree.Convert

/-- Types of node that can be given a type, a question mark and decorators. -/
def isBindingType (type : NodeType) : Bool :=
  [NodeType.identifier, .arrayPattern, .objectPattern, .assignmentPattern, .restElement].contains
    type

/-- Gives a binding its declared type and its question mark. -/
def declare (n : EsNode) (type : Option EsNode) (question : Option Span) : Convert EsNode := do
  let binds := isBindingType n.type
  let n := match type with
    | some type => if binds then n.setChild .type type else n
    | none => n
  let n := match question with
    | some r =>
      (if binds then n.setValue .optional (.flag true) else n).mapLabel fun l =>
        { l with range := l.range.widen r }
    | none => n
  resettle n

/-- Gives a parameter its decorators. -/
def decorate (n : EsNode) (decorators : List EsNode) : Convert EsNode := do
  if decorators.isEmpty || !(isBindingType n.type || n.type == .tsParameterProperty) then return n
  resettle (n.setChildren .decorators decorators)

def parameter (n : Node) : Convert EsNode := do
  let name ← child n .name
  let type ← declaredType? n
  let question := (n.part? .question).map (rangeOf (← read).file)
  let isProperty := !(words n).isEmpty
  let result ←
    if (n.part? .dots).isSome then
      declare (← finish n .restElement (restParts name)) type question
    else if (n.part? .initializer).isSome then
      let left ← declare name type question
      let right ← child n .initializer
      let whole ← finish n .assignmentPattern (assignmentParts left right)
      if isProperty then restart whole left.range.start else pure whole
    else declare name type question
  if isProperty then
    finish n .tsParameterProperty
      [accessibility n, .list .decorators [], .flag .isOverride (hasWord n .overrideKw),
        .one .parameter result, .flag .readonly (hasWord n .readonlyKw),
        .flag .isStatic (hasWord n .staticKw)]
  else return result

/-- The parameters of a function, each with its decorators. -/
def parameters (n : Node) : Convert (List EsNode) :=
  (n.partsOf .parameter).mapM fun param => do
    let converted ← convertPart n param
    decorate converted (← decorators param)

def objectBindingPattern (n : Node) : Convert EsNode := do
  let properties ← children n .element
  finish n .objectPattern
    [.list .decorators [], .flag .optional false, .list .properties properties]

def arrayBindingPattern (n : Node) : Convert EsNode := do
  let elements ← childrenOrHoles n .element false
  finish n .arrayPattern
    [.list .decorators [], .many .elements elements, .flag .optional false]

/-- An element of an array pattern. -/
def arrayBinding (n : Node) : Convert EsNode := do
  let item ← child n .name
  if (n.part? .initializer).isSome then
    let right ← child n .initializer
    finish n .assignmentPattern (assignmentParts item right)
  else if (n.part? .dots).isSome then finish n .restElement (restParts item)
  else return item

/-- An element of an object pattern. -/
def objectBinding (n : Node) : Convert EsNode := do
  let keyRole : Role := if (n.part? .propertyName).isSome then .propertyName else .name
  if (n.part? .dots).isSome then
    let argument ← child n keyRole
    return ← finish n .restElement (restParts argument)
  let key ← child n keyRole
  let value ←
    if (n.part? .initializer).isSome then
      let nameNode ← require n .name
      let left ← convertPart n nameNode
      let right ← child n .initializer
      let r := Span.between ((← read).file.startOf nameNode) right.range.stop
      make none r .assignmentPattern (assignmentParts left right)
    else child n .name
  finish n .property
    (propertyParts (isComputed n .propertyName) key "init" false false
      (n.part? .propertyName).isNone value)

def bindingElement (n : Node) : Convert EsNode := do
  if (← read).place.parent == some (.form .arrayBindingPattern) then arrayBinding n
  else objectBinding n

end EstreeLint.Estree.Convert
