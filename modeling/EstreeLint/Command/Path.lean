import EstreeLint.Text.Split

/-!
Paths of files, by their components.

Two paths with the same components name the same file, however they are written: slashes may be
doubled, and a dot is a component only at the start.
-/

namespace EstreeLint.Command

inductive Component where
  | root | current | parent
  | normal (name : List Char)
deriving DecidableEq, Repr

namespace Component

/-- The kinds of components stand in this order. -/
def rank : Component → Nat
  | .root => 0
  | .current => 1
  | .parent => 2
  | .normal _ => 3

def name : Component → List Char
  | .normal name => name
  | _ => []

/-- Components are ordered by their kinds, then by their names. -/
def compare (a b : Component) : Ordering :=
  (Ord.compare a.rank b.rank).then
    (Ord.compare (a.name.map Char.toNat) (b.name.map Char.toNat))

end Component

namespace Path

/-- The component that a piece between slashes stands for. A dot counts only where `atStart`. -/
def componentOf? (atStart : Bool) : List Char → Option Component
  | [] => none
  | ['.'] => if atStart then some .current else none
  | ['.', '.'] => some .parent
  | name => some (.normal name)

/-- The components of a path. -/
def components (path : List Char) : List Component :=
  match Text.split (· == '/') path with
  | [] => []
  | first :: rest =>
    let start := if first.isEmpty && !rest.isEmpty then some .root else componentOf? true first
    start.toList ++ rest.filterMap (componentOf? false)

/-- The places that components lead to one after the other, each by its names from the top. They
start at the place `here`. -/
def places (here : List (List Char)) : List Component → List (List (List Char))
  | [] => []
  | c :: cs =>
    let next := match c with
      | .root => []
      | .current => here
      | .parent => here.dropLast
      | .normal name => here ++ [name]
    next :: places next cs

/-- Paths are ordered by their components. -/
def compare : List Component → List Component → Ordering
  | [], [] => .eq
  | [], _ :: _ => .lt
  | _ :: _, [] => .gt
  | a :: as, b :: bs => (a.compare b).then (compare as bs)

/-- The name of what a path leads to. -/
def fileName? (path : List Char) : Option (List Char) :=
  match (components path).getLast? with
  | some (.normal name) => some name
  | _ => none

/-- What follows the last dot of a name, if something stands before the dot. -/
def extensionOf? (name : List Char) : Option (List Char) :=
  let ending := (name.reverse.takeWhile (· != '.')).reverse
  if ending.length + 1 < name.length then some ending else none

def extension? (path : List Char) : Option (List Char) := (fileName? path).bind extensionOf?

/-- Files with these extensions are linted. -/
def lintableExtensions : List String := ["ts", "tsx", "mts", "cts", "js", "jsx"]

def isLintable (path : List Char) : Bool :=
  (extension? path).any fun e => lintableExtensions.contains (String.ofList e)

/-- A name below a path. -/
def join (path name : List Char) : List Char :=
  if path.getLast? == some '/' || path.isEmpty then path ++ name else path ++ '/' :: name

end Path

end EstreeLint.Command
