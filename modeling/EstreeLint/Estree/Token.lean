import EstreeLint.Estree.Conversion.Leaf

/-!
The tokens and the comments of a file.

The leaves of the syntax tree are tokens. Those that the tree does not keep, such as brackets and
commas, are found by scanning the text between its leaves. Comments are what the text holds
between two tokens.
-/

namespace EstreeLint.Estree

inductive TokenType where
  | boolean | identifier | jsxIdentifier | jsxText | keyword | null | numeric | privateIdentifier
  | punctuator | regularExpression | string | template
deriving DecidableEq, Repr

namespace TokenType

def name : TokenType → String
  | .boolean => "Boolean"
  | .identifier => "Identifier"
  | .jsxIdentifier => "JSXIdentifier"
  | .jsxText => "JSXText"
  | .keyword => "Keyword"
  | .null => "Null"
  | .numeric => "Numeric"
  | .privateIdentifier => "PrivateIdentifier"
  | .punctuator => "Punctuator"
  | .regularExpression => "RegularExpression"
  | .string => "String"
  | .template => "Template"

/-- The type of a name. One that is spelled like a reserved word has the type of that word. -/
def ofName (text : String) : TokenType :=
  match TokenKind.ofWord? text with
  | some .nullKw => .null
  | some k => if k.isReservedWord then .keyword else .identifier
  | none => .identifier

/-- The type of a token by its kind and its text. -/
def ofKind (k : TokenKind) (text : String) : TokenType :=
  if k == .identifier then ofName text
  else if k == .trueKw || k == .falseKw then .boolean
  else if k.isReservedWord || k.isFutureReservedWord then .keyword
  else if k.isPunctuation then .punctuator
  else if k.isTemplate then .template
  else
    match k with
    | .numericLiteral | .bigIntLiteral => .numeric
    | .privateIdentifier => .privateIdentifier
    | .jsxText | .jsxTextAllWhiteSpaces => .jsxText
    | .stringLiteral => .string
    | .regularExpressionLiteral => .regularExpression
    | _ => .identifier

end TokenType

inductive CommentType where
  | line | block | shebang
deriving DecidableEq, Repr

namespace CommentType

def name : CommentType → String
  | .line => "Line"
  | .block => "Block"
  | .shebang => "Shebang"

end CommentType

structure Token where
  type : TokenType
  range : Span
deriving DecidableEq

namespace Token

/-- The text of a token. A private name is shown without its mark. -/
def value (t : Token) (source : Source) : String :=
  let text := t.range.slice source
  if t.type == .privateIdentifier then String.ofList (text.toList.dropWhile (· == '#')) else text

/-- The pattern and the flags of a regular expression. -/
def regex? (t : Token) (source : Source) : Option (String × String) :=
  if t.type == .regularExpression then some (splitRegex (t.range.slice source).toList) else none

end Token

structure Comment where
  type : CommentType
  /-- The text without the marks around it. -/
  value : String
  range : Span
deriving DecidableEq

/-! ### Tokens between the leaves -/

/-- The tokens at the front of a scanner that stop at or before an offset. The mark that opens a
closing tag is two tokens, and what is no token is left out. -/
def tokensBefore (limit : Nat) : Nat → Scanner → List Token
  | 0, _ => []
  | fuel + 1, s =>
    let s := s.scan
    if s.kind == .endOfFile || limit < s.tokenEnd then []
    else
      let rest := tokensBefore limit fuel s
      let middle := s.tokenStart + 1
      match s.kind with
      | .unknown => rest
      | .lessThanSlash =>
        ⟨.punctuator, Span.between s.tokenStart middle⟩ ::
          ⟨.punctuator, Span.between middle s.tokenEnd⟩ :: rest
      | k => ⟨.ofKind k s.tokenText, Span.between s.tokenStart s.tokenEnd⟩ :: rest

/-- The tokens between two offsets. -/
def tokensIn (file : SourceFile) (start stop : Nat) : List Token :=
  tokensBefore stop (Text.bytes file.text + 1)
    ((Scanner.ofSource file.text file.variant true).reset start)

/-- Tokens that have been found, the last first, and how far the text has been read. -/
structure Found where
  cursor : Nat
  tokens : List Token := []

namespace Found

/-- Reads the text up to an offset. -/
def readTo (file : SourceFile) (stop : Nat) (f : Found) : Found :=
  if stop ≤ f.cursor then f
  else ⟨stop, (tokensIn file f.cursor stop).reverse ++ f.tokens⟩

end Found

/-! ### Leaves -/

/-- The names in tags are of a type of their own. -/
def isTagName (above : List Node) : Bool :=
  match above with
  | [] => false
  | parent :: _ =>
    parent.kind.isJsxTagLike || parent.isForm .jsxNamespacedName ||
      (parent.isForm .propertyAccessExpression && above.any (·.kind.isJsxTagLike))

/-- The type of a leaf below the nodes `above`, the nearest first. -/
def leafType (above : List Node) (k : TokenKind) (text : String) : TokenType :=
  let inTag := above.head?.any fun p => p.isForm .jsxAttribute || p.isForm .jsxElement
  if k == .stringLiteral && inTag then .jsxText
  else if k == .identifier && isTagName above then .jsxIdentifier
  else .ofKind k text

/-- Takes up a leaf of the tree. -/
def Found.leaf (file : SourceFile) (above : List Node) (k : TokenKind) (n : Node) (f : Found) :
    Found :=
  if n.stop ≤ n.pos then f
  else
    let r := Convert.rangeOf file n
    let f := f.readTo file r.start
    ⟨max f.cursor n.stop, ⟨leafType above k (r.slice file.text), r⟩ :: f.tokens⟩

mutual

/-- Takes up the tokens of a tree: its leaves, and what the text holds between them. -/
def foundIn (file : SourceFile) (above : List Node) : Node → Found → Found
  | .node label parts, f =>
    match label.kind with
    | .token k => f.leaf file above k (.node label parts)
    | .form _ =>
      (foundInAll file (.node label parts :: above) parts f).readTo file label.stop

def foundInAll (file : SourceFile) (above : List Node) : List Node → Found → Found
  | [], f => f
  | n :: ns, f => foundInAll file above ns (foundIn file above n f)

end

/-! ### The stream -/

/-- Drops the tokens that have the range of the one kept before, which is `r` at the start. -/
def withoutRepeatsOf (r : Span) : List Token → List Token
  | [] => []
  | t :: ts =>
    if t.range = r then withoutRepeatsOf r ts else t :: withoutRepeatsOf t.range ts

/-- Drops each token with the range of the one before. -/
def withoutRepeats : List Token → List Token
  | [] => []
  | t :: ts => t :: withoutRepeatsOf t.range ts

/-- The tokens of a file, in the order of the text. -/
def tokensOfFile (file : SourceFile) : List Token :=
  let found := foundIn file [] file.root ⟨(Trivia.shebang? file.text).getD 0, []⟩
  let found := found.readTo file (Text.bytes file.text)
  withoutRepeats (found.tokens.reverse.mergeSort fun t u => t.range.start ≤ u.range.start)

/-- The comments between the given ranges and up to the end of the text, from an offset on. -/
def commentsBetween (source : Source) (cursor : Nat) : List Span → List Comment
  | [] => []
  | gap :: rest =>
    let here := if cursor < gap.start then Trivia.commentsIn source cursor gap.start else []
    here.map (fun c =>
      { type := if c.isBlock then .block else .line, value := String.ofList (c.value source),
        range := Span.between c.pos c.stop }) ++
      commentsBetween source (max cursor gap.stop) rest

/-- The comments of a file, given its tokens. -/
def commentsOfFile (file : SourceFile) (tokens : List Token) : List Comment :=
  let bytes := Text.bytes file.text
  let gaps := tokens.map (·.range) ++ [Span.between bytes bytes]
  match Trivia.shebang? file.text with
  | some length =>
    { type := .shebang, value := Text.sliceString file.text 2 length,
      range := Span.between 0 length } :: commentsBetween file.text length gaps
  | none => commentsBetween file.text 0 gaps

end EstreeLint.Estree
