import EstreeLint.Syntax.Kind
import EstreeLint.Tree

/-!
Syntax trees.

A node's label says what it is, where it stands in the text, and which part of its parent it
plays; its children are its parts in source order. A part that is a list, such as the
parameters of a function, is several children of one role, and the label keeps where the list
stands. Positions follow the tokens: a node starts where the trivia before its first token
starts, and stops where its last token stops.
-/

namespace EstreeLint

/-- The part that a node plays in its parent. -/
inductive Role where
  | root | left | right | expression | type | element | modifier | name | constraint | default
  | dots | question | declaredType | initializer | mark | asterisk | typeParameter | parameter
  | arrow | body | asserts | parameterName | typeName | typeArgument | checkType | extendsType
  | trueType | falseType | objectType | indexType | readonlyMark | nameType | member | head | span
  | literal | argument | attributes | qualifier | propertyName | questionDot | tag | template
  | operand | operator | condition | whenTrue | whenFalse | heritage | declarationList
  | thenStatement | elseStatement | incrementor | statement | await | label | caseBlock
  | tryBlock | catchClause | finallyBlock | exclamation | moduleReference | importClause
  | moduleSpecifier | namedBindings | exportClause | opening | child | closing | tagName
  | namespaceName | variableDeclaration | block | value
deriving DecidableEq, Repr

/-- Where a list of parts stands: between the delimiters around it. -/
structure ListSpan where
  pos : Nat
  stop : Nat
  trailingComma : Bool := false
deriving DecidableEq, Repr

/-- What a node holds besides its parts. -/
inductive Payload where
  | none
  /-- The text of a name, escapes decoded. -/
  | name (text : String)
  /-- The value of a literal, and whether it lacks its closing delimiter. -/
  | literal (text : String) (unterminated : Bool)
  /-- An operator or keyword that is no part of its own. -/
  | token (k : TokenKind)
  /-- Whether a word that changes the meaning was written. -/
  | flag (b : Bool)
deriving DecidableEq, Repr

/-- Facts about a node that its parts do not show. -/
structure NodeFlags where
  isLet : Bool := false
  isConst : Bool := false
  isUsing : Bool := false
  nestedNamespace : Bool := false
  namespaceWord : Bool := false
  globalAugmentation : Bool := false
  optionalChain : Bool := false
  hasError : Bool := false
deriving DecidableEq, Repr

namespace NodeFlags

/-- The flags as a number, one bit each. -/
def bits (f : NodeFlags) : Nat :=
  f.isLet.toNat + 2 * f.isConst.toNat + 4 * f.isUsing.toNat + 8 * f.nestedNamespace.toNat
    + 16 * f.namespaceWord.toNat + 32 * f.globalAugmentation.toNat + 64 * f.optionalChain.toNat
    + 128 * f.hasError.toNat

end NodeFlags

structure NodeLabel where
  /-- Nodes are numbered as they are made, so parts come before what they are parts of. -/
  id : Nat
  kind : NodeKind
  pos : Nat
  stop : Nat
  role : Role := .root
  flags : NodeFlags := {}
  payload : Payload := .none
  lists : List (Role × ListSpan) := []
deriving DecidableEq, Repr

abbrev Node := Tree NodeLabel

/-- Nodes in a list, and where the list stands. -/
structure NodeList where
  nodes : List Node
  span : ListSpan

namespace NodeList

def pos (l : NodeList) : Nat := l.span.pos

def stop (l : NodeList) : Nat := l.span.stop

end NodeList

namespace Tree

def index (n : Node) : Nat := n.label.id

def kind (n : Node) : NodeKind := n.label.kind

def pos (n : Node) : Nat := n.label.pos

def stop (n : Node) : Nat := n.label.stop

def role (n : Node) : Role := n.label.role

def flags (n : Node) : NodeFlags := n.label.flags

/-- The node is the given token. -/
def isToken (n : Node) (k : TokenKind) : Bool := n.kind == .token k

/-- The node has the given form. -/
def isForm (n : Node) (f : Form) : Bool := n.kind == .form f

def token? (n : Node) : Option TokenKind := n.kind.token?

/-- The node in another part. -/
def withRole (n : Node) (r : Role) : Node := n.mapLabel fun l => { l with role := r }

/-- The part with a role. -/
def part? (n : Node) (r : Role) : Option Node := n.children.find? (·.role == r)

/-- The parts with a role, in order. -/
def partsOf (n : Node) (r : Role) : List Node := n.children.filter (·.role == r)

/-- The list of parts with a role, if the node has such a list, empty or not. -/
def list? (n : Node) (r : Role) : Option NodeList :=
  (n.label.lists.lookup r).map fun span => ⟨n.partsOf r, span⟩

def nameText? (n : Node) : Option String :=
  match n.label.payload with
  | .name text => some text
  | _ => none

def literal? (n : Node) : Option (String × Bool) :=
  match n.label.payload with
  | .literal text unterminated => some (text, unterminated)
  | _ => none

/-- The operator or keyword that the node holds. -/
def word? (n : Node) : Option TokenKind :=
  match n.label.payload with
  | .token k => some k
  | _ => none

/-- The node holds a word that changes its meaning. -/
def isFlagged (n : Node) : Bool := n.label.payload == .flag true

end Tree

/-- A part of a node under construction. -/
inductive Part where
  | one (r : Role) (n : Option Node)
  | many (r : Role) (l : NodeList)
  | data (p : Payload)

namespace Part

def optional (r : Role) : Option NodeList → Part
  | some l => .many r l
  | none => .one r none

def nodes : Part → List Node
  | .one r n => (n.map (·.withRole r)).toList
  | .many r l => l.nodes.map (·.withRole r)
  | .data _ => []

def span? : Part → Option (Role × ListSpan)
  | .many r l => some (r, l.span)
  | _ => none

def payload? : Part → Option Payload
  | .data p => some p
  | _ => none

end Part

/-- A node from its parts. -/
def Node.ofParts (id : Nat) (kind : NodeKind) (pos stop : Nat) (flags : NodeFlags)
    (parts : List Part) : Node :=
  .node
    { id, kind, pos, stop, flags,
      payload := ((parts.filterMap Part.payload?).head?).getD .none,
      lists := parts.filterMap Part.span? }
    (parts.flatMap Part.nodes)

end EstreeLint
