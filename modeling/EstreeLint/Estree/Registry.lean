import EstreeLint.Tree
import EstreeLint.Estree.Node

/-!
The registry of a conversion: which ESTree node comes from which node of the syntax tree, and
back.

Several nodes may come from one; the first of them answers for it. When a node is dropped after
it was numbered, `redirect` lets another answer for all that it answered for.
-/

namespace EstreeLint.Estree

structure Registry where
  /-- For each number, the syntax node it comes from. -/
  natives : List (Option Nat) := []
  /-- For each syntax node, the number that answers for it, the newest entry first. -/
  converted : List (Nat × Nat) := []
  /-- For each number, the syntax nodes it answers for by redirection. -/
  forwarded : List (Nat × List Nat) := []
deriving DecidableEq, Repr

namespace Registry

def size (r : Registry) : Nat := r.natives.length

def isEmpty (r : Registry) : Bool := r.natives.isEmpty

/-- The syntax node that a number comes from. -/
def nativeOf? (r : Registry) (id : Nat) : Option Nat := (r.natives[id]?).join

/-- The number that answers for a syntax node. -/
def convertedOf? (r : Registry) (native : Nat) : Option Nat := r.converted.lookup native

/-- Takes the next number, for a node that comes from `native` or from none. -/
def next (r : Registry) (native : Option Nat) : Nat × Registry :=
  let id := r.size
  let converted := match native with
    | some n => if (r.convertedOf? n).isSome then r.converted else (n, id) :: r.converted
    | none => r.converted
  (id, { r with natives := r.natives ++ [native], converted })

def forwardedTo (r : Registry) (id : Nat) : List Nat := (r.forwarded.lookup id).getD []

/-- The syntax nodes that may have a dropped number as their answer. -/
def carried (r : Registry) (dropped : Nat) : List Nat :=
  r.forwardedTo dropped ++ (r.nativeOf? dropped).toList

/-- Lets `kept` answer where `dropped` did. -/
def redirect (r : Registry) (dropped kept : Nat) : Registry :=
  let moved := r.carried dropped
  let others := r.forwarded.filter (·.1 != dropped)
  let received := (others.lookup kept).getD [] ++ moved
  { natives := match r.nativeOf? dropped with
      | some n => if r.natives[kept]? == some none then r.natives.set kept (some n) else r.natives
      | none => r.natives
    converted := r.converted.map fun (n, id) =>
      if id == dropped && moved.contains n then (n, kept) else (n, id)
    forwarded :=
      if moved.isEmpty then others else (kept, received) :: others.filter (·.1 != kept) }

end Registry

/-- For each node of a tree, its number and that of its parent. -/
def parentTable (root : EsNode) : List (Nat × Nat) :=
  (root.paths []).filterMap fun (above, n) => above.head?.map fun p => (n.id, p.id)

end EstreeLint.Estree
