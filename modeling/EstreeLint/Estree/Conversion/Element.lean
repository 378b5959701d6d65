import EstreeLint.Estree.Conversion.Type

/-!
Conversion of elements.
-/

namespace EstreeLint.Estree.Convert

/-! ### Names -/

/-- A plain name in a tag, by its source. -/
def jsxIdentifier (n : Node) : Convert EsNode := do
  let name ← sourceOf (← tokensOf n)
  finish n .jsxIdentifier [.text .name name]

/-- A name that may have a namespace. -/
def jsxName (n : Node) : Convert EsNode := do
  if n.isForm .jsxNamespacedName then
    let namespaceName ← jsxIdentifier (← require n .namespaceName)
    let name ← jsxIdentifier (← require n .name)
    finish n .jsxNamespacedName [.one .name name, .one .namespaceName namespaceName]
  else jsxIdentifier n

/-- The name of a tag, which may have dots. -/
def jsxTagName : Node → Convert EsNode
  | .node label parts => do
    match label.kind, parts with
    | .form .propertyAccessExpression, [object, property] =>
      let object ← jsxTagName object
      let property ← jsxIdentifier property
      finish (.node label parts) .jsxMemberExpression
        [.one .object object, .one .property property]
    | _, _ => jsxName (.node label parts)

/-! ### Tags -/

/-- An opening tag, which comes from `native`. One that closes at once comes from none. -/
def openingElement (native : Option Node) (n : Node) (r : Span) (selfClosing : Bool) :
    Convert EsNode := do
  let name ← jsxTagName (← require n .tagName)
  let args ← typeArguments? n
  let attributes ← match n.part? .attributes with
    | some list => children list .element
    | none => pure []
  make native r .jsxOpeningElement
    [.list .attributes attributes, .one .name name, .flag .selfClosing selfClosing,
      .extra .typeArguments args]

def jsxOpening (n : Node) : Convert EsNode := do openingElement (some n) n (← tokensOf n) false

def jsxSelfClosing (n : Node) : Convert EsNode := do
  let opening ← openingElement none n (← tokensOf n) true
  finish n .jsxElement
    [.list .children [], .value .closingElement .null, .one .openingElement opening]

def jsxClosing (n : Node) : Convert EsNode := do
  let name ← jsxTagName (← require n .tagName)
  finish n .jsxClosingElement [.one .name name]

/-! ### Elements -/

def jsxElement (n : Node) : Convert EsNode := do
  let opening ← child n .opening
  let inside ← children n .child
  let closing ← child? n .closing
  finish n .jsxElement
    [.list .children inside, .one? .closingElement closing, .one .openingElement opening]

def jsxFragment (n : Node) : Convert EsNode := do
  let opening ← child n .opening
  let inside ← children n .child
  let closing ← child n .closing
  finish n .jsxFragment
    [.list .children inside, .one .closingFragment closing, .one .openingFragment opening]

def jsxAttribute (n : Node) : Convert EsNode := do
  let name ← jsxName (← require n .name)
  let value ← child? n .initializer
  finish n .jsxAttribute [.one .name name, .one? .value value]

/-- An expression in braces. Where there is none, the space between the braces stands for it. -/
def jsxExpression (n : Node) : Convert EsNode := do
  let e ←
    if (n.part? .expression).isSome then child n .expression
    else
      let r ← tokensOf n
      make none (Span.between (r.start + 1) (r.stop - 1)) .jsxEmptyExpression
  let type := if (n.part? .dots).isSome then NodeType.jsxSpreadChild else .jsxExpressionContainer
  finish n type [.one .expression e]

end EstreeLint.Estree.Convert
