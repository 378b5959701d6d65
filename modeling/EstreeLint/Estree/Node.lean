import EstreeLint.Estree.Field
import EstreeLint.Estree.NodeType
import EstreeLint.LineMap
import EstreeLint.Span
import EstreeLint.Tree

/-!
Nodes of an ESTree.

A label holds the node's number, type, range and location, the field of its parent that the node
stands in, and the node's own fields. A field holds a value, or one child, or a list of children
in which places may be left empty. The children stand in the order of the fields.
-/

namespace EstreeLint.Estree

/-- What a field holds that is not a node. -/
inductive Value where
  | null
  | flag (b : Bool)
  | text (s : String)
  /-- A number, by the bits of the double. -/
  | number (bits : UInt64)
  | regex (pattern flags : String)
  | template (cooked raw : String)
deriving DecidableEq, Repr

/-- What a field holds. -/
inductive Slot where
  | value (v : Value)
  | one
  /-- A list, with the places that are filled. -/
  | many (filled : List Bool)
deriving DecidableEq, Repr

structure Label where
  /-- Nodes are numbered as they are made. -/
  id : Nat
  type : NodeType
  /-- The field of the parent that the node stands in. -/
  field : Field := .body
  range : Span
  loc : Location
  slots : List (Field × Slot) := []
deriving DecidableEq

end Estree

abbrev EsNode := Tree Estree.Label

namespace Tree

open Estree

def id (n : EsNode) : Nat := n.label.id

def type (n : EsNode) : NodeType := n.label.type

def field (n : EsNode) : Field := n.label.field

def range (n : EsNode) : Span := n.label.range

def loc (n : EsNode) : Location := n.label.loc

def inField (f : Field) (n : EsNode) : EsNode := n.mapLabel fun l => { l with field := f }

/-- The child in a field. -/
def child? (n : EsNode) (f : Field) : Option EsNode := n.children.find? (·.field == f)

/-- The children in a field. -/
def childrenIn (n : EsNode) (f : Field) : List EsNode := n.children.filter (·.field == f)

/-- The value of a field. -/
def value? (n : EsNode) (f : Field) : Option Value :=
  match n.label.slots.lookup f with
  | some (.value v) => some v
  | _ => none

/-- The name of a node that is a name. -/
def name? (n : EsNode) : Option String :=
  if n.type == .identifier || n.type == .privateIdentifier || n.type == .jsxIdentifier then
    match n.value? .name with
    | some (.text s) => some s
    | _ => none
  else none

/-- Puts a slot with its nodes into a field, in place of what the field held. -/
def setSlot (n : EsNode) (f : Field) (slot : Slot) (nodes : List EsNode) : EsNode :=
  .node
    { n.label with
      slots := (n.label.slots.takeWhile (·.1.number < f.number)) ++
        (f, slot) :: n.label.slots.dropWhile (·.1.number ≤ f.number) }
    (n.children.takeWhile (·.field.number < f.number) ++ nodes.map (inField f) ++
      n.children.dropWhile (·.field.number ≤ f.number))

def setValue (n : EsNode) (f : Field) (v : Value) : EsNode := n.setSlot f (.value v) []

def setChild (n : EsNode) (f : Field) (child : EsNode) : EsNode := n.setSlot f .one [child]

def setChildren (n : EsNode) (f : Field) (nodes : List EsNode) : EsNode :=
  n.setSlot f (.many (nodes.map fun _ => true)) nodes

/-- The least span over a span and the ranges of nodes. -/
def widenOver (r : Span) (nodes : List EsNode) : Span :=
  nodes.foldl (fun r n => r.widen n.range) r

end Tree

namespace Estree

/-- A field of a node under construction. -/
inductive Part where
  | value (f : Field) (v : Value)
  | one (f : Field) (n : EsNode)
  | many (f : Field) (ns : List (Option EsNode))
  /-- A field that is left out. -/
  | absent

namespace Part

def flag (f : Field) (b : Bool) : Part := .value f (.flag b)

def text (f : Field) (s : String) : Part := .value f (.text s)

/-- A text or null. -/
def text? (f : Field) : Option String → Part
  | some s => .text f s
  | none => .value f .null

/-- A child or null. -/
def one? (f : Field) : Option EsNode → Part
  | some n => .one f n
  | none => .value f .null

/-- A child, or no field at all. -/
def extra (f : Field) : Option EsNode → Part
  | some n => .one f n
  | none => .absent

def list (f : Field) (ns : List EsNode) : Part := .many f (ns.map some)

def slot? : Part → Option (Field × Slot)
  | .value f v => some (f, .value v)
  | .one f _ => some (f, .one)
  | .many f ns => some (f, .many (ns.map Option.isSome))
  | .absent => none

def nodes : Part → List EsNode
  | .value .. => []
  | .one f n => [n.inField f]
  | .many f ns => ns.filterMap fun n => n.map (·.inField f)
  | .absent => []

end Part

end EstreeLint.Estree
