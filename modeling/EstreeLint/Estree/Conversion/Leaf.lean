import EstreeLint.Estree.Conversion.Basic
import EstreeLint.Estree.Entity
import EstreeLint.Estree.Numeral

/-!
Conversion of tokens: names, literals, pieces of templates, and words that are types.
-/

namespace EstreeLint.Estree

/-- The pattern and the flags of a regular expression, which its last slash divides. -/
def splitRegex (raw : List Char) : String × String :=
  let body := if raw.head? == some '/' then raw.drop 1 else raw
  let flags := (body.reverse.takeWhile (· != '/')).reverse
  if flags.length < body.length then
    (String.ofList (body.take (body.length - flags.length - 1)), String.ofList flags)
  else (String.ofList body, "")

namespace Convert

/-- A literal with its source. -/
def literalParts (raw : String) (value : Value) : List Part :=
  [.text .raw raw, .value .value value]

def numberValue (raw : String) : Value :=
  match Numeral.bits? raw.toList with
  | some bits => .number bits
  | none => .null

/-- The digits of a big integer, without separators and the mark at the end. -/
def bigDigits (raw : String) : String :=
  String.ofList ((raw.toList.reverse.dropWhile (· == 'n')).reverse.filter (· != '_'))

def literal (n : Node) (k : TokenKind) : Convert EsNode := do
  let raw ← sourceOf (← tokensOf n)
  finish n .literal <| match k with
    | .trueKw => literalParts raw (.flag true)
    | .falseKw => literalParts raw (.flag false)
    | .nullKw => literalParts raw .null
    | .stringLiteral => literalParts raw (.text (n.literal?.elim "" (·.1)))
    | .numericLiteral => literalParts raw (numberValue raw)
    | .bigIntLiteral => .text .bigint (bigDigits raw) :: literalParts raw .null
    | _ =>
      let (pattern, flags) := splitRegex raw.toList
      [.text .raw raw, .value .regex (.regex pattern flags), .value .value .null]

/-- A piece of a template. Its source is what stands between the delimiters. -/
def templateElement (n : Node) (k : TokenKind) : Convert EsNode := do
  let (cooked, unterminated) := n.literal?.getD ("", false)
  let r ← tokensOf n
  let tail := k == .templateTail || k == .noSubstitutionTemplateLiteral
  let closing := if unterminated then 0 else if tail then 1 else 2
  let raw ← sourceOf (Span.between (r.start + 1) (r.stop - closing))
  finish n .templateElement [.flag .tail tail, .value .value (.template cooked raw)]

/-- A name, or `this` in a type query. -/
def identifier (n : Node) : Convert EsNode := do
  let name := n.nameText?.getD ""
  if name == "this" && (← read).place.inQuery then finish n .thisExpression
  else finish n .identifier (identifierParts name)

/-- Text between tags, with the white space around it. -/
def jsxText (n : Node) : Convert EsNode := do
  let r := Span.between n.pos n.stop
  let raw ← sourceOf r
  make (some n) r .jsxText
    [.text .raw raw, .text .value (String.ofList (Entity.decode raw.toList))]

/-- The type of node that a word stands for by itself. -/
def wordType? : TokenKind → Option NodeType
  | .thisKw => some .thisExpression
  | .superKw => some .superReference
  | .anyKw => some .tsAnyKeyword
  | .bigIntKw => some .tsBigIntKeyword
  | .booleanKw => some .tsBooleanKeyword
  | .intrinsicKw => some .tsIntrinsicKeyword
  | .neverKw => some .tsNeverKeyword
  | .numberKw => some .tsNumberKeyword
  | .objectKw => some .tsObjectKeyword
  | .stringKw => some .tsStringKeyword
  | .symbolKw => some .tsSymbolKeyword
  | .undefinedKw => some .tsUndefinedKeyword
  | .unknownKw => some .tsUnknownKeyword
  | .voidKw => some .tsVoidKeyword
  | .abstractKw => some .tsAbstractKeyword
  | _ => none

def token (n : Node) (k : TokenKind) : Convert EsNode := do
  match k with
  | .identifier => identifier n
  | .privateIdentifier =>
    let name := (n.nameText?.getD "").toList.dropWhile (· == '#')
    finish n .privateIdentifier [.text .name (String.ofList name)]
  | .stringLiteral | .numericLiteral | .bigIntLiteral | .regularExpressionLiteral | .trueKw
  | .falseKw | .nullKw => literal n k
  | .noSubstitutionTemplateLiteral =>
    let quasi ← templateElement n k
    finish n .templateLiteral [.list .expressions [], .list .quasis [quasi]]
  | .templateHead | .templateMiddle | .templateTail => templateElement n k
  | .jsxText | .jsxTextAllWhiteSpaces => jsxText n
  | _ =>
    match wordType? k with
    | some type => finish n type
    | none => unexpected n

end Convert

end EstreeLint.Estree
