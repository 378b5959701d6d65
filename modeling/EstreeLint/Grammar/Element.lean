import EstreeLint.Grammar.Expression

/-!
Elements: tags, attributes and children.

Between tags the text is read piece by piece, inside tags token by token. So whatever closes a
tag or an embedded expression decides how the text after it is read: an element among children
hands over to the text, one in an expression to the tokens.
-/

namespace EstreeLint.Grammar

open Parse

/-- Takes the token at hand and reads a piece of text after it. -/
def nextText : Parse Unit := takeWith Scanner.scanJsxToken

/-- The token that closes a tag or an embedded expression. -/
def expectClosing (k : TokenKind) (inExpression : Bool) : Parse Unit := do
  if inExpression then expect_ k
  else
    if !(← isAt k) then expect_ k
    nextText

/-! ### Names -/

/-- A name that may have hyphens. -/
def hyphenatedName : Parse Node := do
  discard (rescan Scanner.scanJsxIdentifier)
  identifierName

/-- A name after a colon. -/
def namespacedRest (start : Nat) (namespaceName : Node) : Parse Node := do
  expect_ .colon
  let name ← hyphenatedName
  finish .jsxNamespacedName start [.one .namespaceName namespaceName, .one .name name]

/-- A name behind a dot in the name of a tag, joined to the names before it. -/
def dottedTag (start : Nat) (e : Node) : Parse (Option Node) := do
  if ← accept .dot then
    let name ← identifierName
    return some (← finish .propertyAccessExpression start [.one .expression e, .one .name name])
  else return none

/-- The name of a tag: with hyphens, with a namespace, or with dots. -/
def tagName : Parse Node := do
  let start ← pos
  discard (rescan Scanner.scanJsxIdentifier)
  let first ← if ← isAt .thisKw then tokenNode else identifierName
  if ← isAt .colon then namespacedRest start first
  else first |> iterate (dottedTag start)

/-- The text of a name, as it is compared between the tags of an element. -/
def nameText : Node → String
  | .node label parts =>
    match label.kind, parts with
    | .token .thisKw, _ => "this"
    | .form .jsxNamespacedName, [a, b] => nameText a ++ ":" ++ nameText b
    | .form .propertyAccessExpression, [a, b] => nameText a ++ "." ++ nameText b
    | _, _ =>
      match label.payload with
      | .name text => text
      | _ => ""

/-- The text of a tag's name; empty for a fragment. -/
def tagText (tag : Node) : String := ((tag.part? .tagName).map nameText).getD ""

/-! ### Attributes -/

/-- An expression in braces, which may be missing or spread out. -/
def embedded (inExpression : Bool) : Parse Node := do
  let start ← pos
  expect_ .openBrace
  let (dots, e) ←
    if ← isAt .closeBrace then pure (none, none)
    else
      let dots ← optionalToken .dotDotDot
      let e ← expression
      pure (dots, some e)
  expectClosing .closeBrace inExpression
  finish .jsxExpression start [.one .dots dots, .one .expression e]

/-- The value of an attribute, from the `=` on. -/
def attributeValue : Parse (Option Node) := do
  takeWith Scanner.scanJsxAttributeValue
  match ← token with
  | .stringLiteral => return some (← literal)
  | .openBrace => return some (← embedded true)
  | .lessThan => return some (← reach (.element true))
  | _ =>
    error .attributeValueExpected
    return none

def spreadAttribute : Parse Node := do
  let start ← pos
  expect_ .openBrace
  expect_ .dotDotDot
  let e ← expression
  expect_ .closeBrace
  finish .jsxSpreadAttribute start [.one .expression e]

/-- An attribute behind its name. -/
def attributeRest (start : Nat) (name : Node) : Parse Node := do
  let value ← if ← isAt .equals then attributeValue else pure none
  finish .jsxAttribute start [.one .name name, .one .initializer value]

/-- An attribute; nothing where none begins. -/
def jsxAttribute : Parse (Option Node) := do
  let start ← pos
  if ← isAt .openBrace then return some (← spreadAttribute)
  if !(← atWord) then
    error .identifierExpected
    next
    return none
  let plain ← hyphenatedName
  if ← isAt .colon then
    let name ← namespacedRest start plain
    return some (← attributeRest start name)
  else return some (← attributeRest start plain)

def jsxAttributes : Parse Node := do
  let start ← pos
  let list ← listUntil [.greaterThan, .slash] jsxAttribute
  finish .jsxAttributes start [.many .element list]

/-! ### Tags and children -/

/-- An opening tag, or an element that is closed at once. -/
def openingTag (inExpression : Bool) : Parse Node := do
  let start ← pos
  expect_ .lessThan
  if ← isAt .greaterThan then
    nextText
    return ← finish .jsxOpeningFragment start
  let name ← tagName
  let args ← if ← isAt .lessThan then some <$> typeArguments else pure none
  let list ← jsxAttributes
  let parts := [.one .tagName name, .optional .typeArgument args, .one .attributes list]
  if ← isAt .greaterThan then
    nextText
    return ← finish .jsxOpeningElement start parts
  expect_ .slash
  expectClosing .greaterThan inExpression
  finish .jsxSelfClosingElement start parts

/-- A closing tag, empty where there is none. -/
def closingTag (inExpression : Bool) : Parse Node := do
  let start ← pos
  if ← accept .lessThanSlash then
    if ← isAt .greaterThan then
      expectClosing .greaterThan inExpression
      finish .jsxClosingFragment start
    else
      let name ← tagName
      expectClosing .greaterThan inExpression
      finish .jsxClosingElement start [.one .tagName name]
  else finish .jsxClosingFragment start

/-- Reports a closing tag that is missing or names another element. -/
def checkTags (opening closing : Node) : Parse Unit := do
  let name := tagText opening
  if closing.pos == closing.stop then
    errorAt opening.pos 0 (.unclosedElementNamed name)
  else if name != tagText closing then
    errorAt closing.pos (closing.stop - closing.pos) (.otherClosingTag name)

def textChild : Parse Node := do
  let start ← pos
  let text ← tokenValue
  nextText
  node (.token .jsxText) start (← pos) [.data (.literal text false)]

/-- One child; nothing before the closing tag. -/
def child (opening : Node) : Parse (Option Node) := do
  match ← token with
  | .lessThanSlash | .endOfFile => return none
  | .jsxText | .jsxTextAllWhiteSpaces => return some (← textChild)
  | .openBrace => return some (← embedded false)
  | .lessThan => return some (← reach (.element false))
  | _ =>
    errorAt opening.pos 0 .unclosedElement
    return none

/-- What an opening tag opens, if it opens anything. -/
def opened? (tag : Node) : Option Form :=
  match tag.kind with
  | .form .jsxOpeningElement => some .jsxElement
  | .form .jsxOpeningFragment => some .jsxFragment
  | _ => none

/-- An element from its children on. -/
def elementRest (form : Form) (start : Nat) (opening : Node) (inExpression : Bool) :
    Parse Node := do
  let childrenStart ← pos
  let children ← listFrom childrenStart (← many (child opening))
  let closing ← closingTag inExpression
  checkTags opening closing
  finish form start [.one .opening opening, .many .child children, .one .closing closing]

/-- An element or a fragment. -/
def element (inExpression : Bool) : Parse Node := do
  let start ← pos
  let opening ← openingTag inExpression
  match opened? opening with
  | none => return opening
  | some form => elementRest form start opening inExpression

end EstreeLint.Grammar
