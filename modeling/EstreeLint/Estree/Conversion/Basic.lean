import EstreeLint.Estree.Registry
import EstreeLint.SourceFile

/-!
The steps that the conversion from a syntax tree to an ESTree is written in.

A converted node covers the tokens of the node it comes from, and all of its children: `make`
widens the range that it is given over them. A node that is changed after it was made is settled
again.
-/

namespace EstreeLint.Estree

/-- Why a tree cannot be converted. -/
inductive ConvertError where
  | unexpectedKind (kind : NodeKind) (pos : Nat)
  | missingChild (parent : NodeKind) (pos : Nat)
deriving DecidableEq, Repr

namespace ConvertError

def message : ConvertError → String
  | .unexpectedKind kind pos =>
    "unexpected node kind " ++ kind.name ++ " at offset " ++ toString pos
  | .missingChild parent pos =>
    parent.name ++ " at offset " ++ toString pos ++ " is missing a required child"

end ConvertError

/-- Where a node stands, as far as its conversion depends on it. -/
structure Place where
  /-- The node is assigned to. -/
  isTarget : Bool := false
  parent : Option NodeKind := none
  /-- The node belongs to the name in a type query. -/
  inQuery : Bool := false
deriving DecidableEq, Repr

namespace Place

/-- The place of a part of `n`, where `n` stands at `p`. -/
def below (p : Place) (n : Node) (isTarget : Bool) : Place where
  isTarget := isTarget
  parent := some n.kind
  inQuery := n.isForm .typeQuery || (n.isForm .qualifiedName && p.inQuery)

end Place

abbrev Build := StateT Registry (Except ConvertError)

structure Env where
  file : SourceFile
  /-- Where the node being converted stands. -/
  place : Place
  /-- How a node below it is converted. -/
  recur : Place → Node → Build EsNode

abbrev Convert := ReaderT Env Build

namespace Convert

/-! ### Ranges and locations -/

def locate (file : SourceFile) (r : Span) : Location :=
  ⟨file.lines.lineColumn file.text r.start, file.lines.lineColumn file.text r.stop⟩

/-- Widens a node's range over its children and finds its location anew. -/
def settle (file : SourceFile) (n : EsNode) : EsNode :=
  let r := Tree.widenOver n.range n.children
  n.mapLabel fun l => { l with range := r, loc := locate file r }

/-- The tokens of a node. -/
def rangeOf (file : SourceFile) (n : Node) : Span := Span.between (file.startOf n) n.stop

def tokensOf (n : Node) : Convert Span := return rangeOf (← read).file n

def sourceOf (r : Span) : Convert String := return r.slice (← read).file.text

/-- Moves the start of a node. -/
def restart (n : EsNode) (start : Nat) : Convert EsNode := do
  let moved := n.mapLabel fun l => { l with range := Span.between start n.range.stop }
  return settle (← read).file moved

/-- Settles a node that has been changed. -/
def resettle (n : EsNode) : Convert EsNode := return settle (← read).file n

/-! ### Making nodes -/

/-- A new node, which comes from `native` or from none. -/
def make (native : Option Node) (r : Span) (type : NodeType) (parts : List Part := []) :
    Convert EsNode := do
  let (id, registry) := (← get).next (native.map (·.label.id))
  set registry
  let children := parts.flatMap Part.nodes
  let range := Tree.widenOver r children
  return .node
    { id, type, range, loc := locate (← read).file range, slots := parts.filterMap Part.slot? }
    children

/-- A new node over the tokens of the node it comes from. -/
def finish (n : Node) (type : NodeType) (parts : List Part := []) : Convert EsNode := do
  make (some n) (← tokensOf n) type parts

def unexpected {α : Type} (n : Node) : Convert α := throw (.unexpectedKind n.kind n.pos)

def missing {α : Type} (n : Node) : Convert α := throw (.missingChild n.kind n.pos)

/-! ### Parts -/

/-- Converts a part of `n`. -/
def convertPart (n part : Node) (isTarget : Bool := false) : Convert EsNode :=
  fun env => env.recur (env.place.below n isTarget) part

/-- A part that must be there. -/
def require (n : Node) (r : Role) : Convert Node :=
  match n.part? r with
  | some part => return part
  | none => missing n

/-- Converts a part that must be there. -/
def child (n : Node) (r : Role) : Convert EsNode := do convertPart n (← require n r)

/-- Converts a part that must be there and is assigned to. -/
def target (n : Node) (r : Role) : Convert EsNode := do convertPart n (← require n r) true

/-- Converts a part that may be there. -/
def child? (n : Node) (r : Role) : Convert (Option EsNode) := (n.part? r).mapM (convertPart n ·)

/-- Converts the parts with a role. -/
def children (n : Node) (r : Role) : Convert (List EsNode) :=
  (n.partsOf r).mapM (convertPart n ·)

/-- Converts the parts with a role, leaving the places of omitted ones empty. -/
def childrenOrHoles (n : Node) (r : Role) (isTarget : Bool) : Convert (List (Option EsNode)) :=
  (n.partsOf r).mapM fun part =>
    if part.isForm .omittedExpression then return none
    else some <$> convertPart n part isTarget

/-! ### Tokens that the tree does not keep -/

/-- The token at or after an offset. -/
def tokenAt (pos : Nat) : Convert (TokenKind × Span) := do
  let file := (← read).file
  let (kind, start, stop) := Scanner.tokenAt file.text file.variant pos
  return (kind, Span.between start stop)

/-- The first token of a kind among the next `n`. -/
def findAmong (wanted : TokenKind) : Nat → Scanner → Option Span
  | 0, _ => none
  | n + 1, s =>
    let s := s.scan
    if s.kind == .endOfFile then none
    else if s.kind == wanted then some (Span.between s.tokenStart s.tokenEnd)
    else findAmong wanted n s

/-- The first token of a kind at or after an offset, or nothing there if the text ends first. -/
def findToken (pos : Nat) (wanted : TokenKind) : Convert Span := do
  let file := (← read).file
  let s := (Scanner.ofSource file.text file.variant true).reset pos
  return (findAmong wanted (Text.bytes file.text + 1) s).getD (Span.between pos pos)

/-! ### Modifiers -/

/-- A word among the modifiers of a node. -/
def hasWord (n : Node) (k : TokenKind) : Bool := (n.partsOf .modifier).any (·.isToken k)

/-- The modifiers of a node that are words. -/
def words (n : Node) : List (TokenKind × Node) :=
  (n.partsOf .modifier).filterMap fun m => m.token?.map fun k => (k, m)

/-- The word that says who may use a member. -/
def accessibility (n : Node) : Part :=
  .text? .accessibility <| (words n).findSome? fun (k, _) =>
    if [TokenKind.publicKw, .privateKw, .protectedKw].contains k then k.text? else none

/-- The decorators among the modifiers of a node. -/
def decorators (n : Node) : Convert (List EsNode) :=
  ((n.partsOf .modifier).filter (·.isForm .decorator)).mapM (convertPart n ·)

/-- The name of a property is an expression in brackets. -/
def isComputed (n : Node) (r : Role) : Part :=
  .flag .isComputed ((n.part? r).any (·.isForm .computedPropertyName))

/-! ### Common shapes -/

/-- An identifier. -/
def identifierParts (name : String) : List Part :=
  [.list .decorators [], .text .name name, .flag .optional false]

/-- A property of an object. -/
def propertyParts (computed : Part) (key : EsNode) (kind : String)
    (isMethod optional shorthand : Bool)
    (value : EsNode) : List Part :=
  [computed, .one .key key, .text .kind kind, .flag .isMethod isMethod, .flag .optional optional,
    .flag .shorthand shorthand, .one .value value]

/-- A value for when there is none, beside what it is assigned to. -/
def assignmentParts (left right : EsNode) : List Part :=
  [.list .decorators [], .one .left left, .flag .optional false, .one .right right]

/-- What takes the rest of a list or an object. -/
def restParts (argument : EsNode) : List Part :=
  [.one .argument argument, .list .decorators [], .flag .optional false, .value .value .null]

end Convert

end EstreeLint.Estree
