import EstreeLint.Proofs.Grammar.Goes
import EstreeLint.Proofs.Token.Placed

/-!
Nodes that are laid out one after another.

A parse moves on in two ways: in the text, and in the arena. `Laid arena a ns b` says that the
nodes `ns` have come between the places `a` and `b`: their ranges follow one another from `a` to
`b`, their numbers do, and the same is so inside each of them for its parts, which are all made
before it is.
-/

namespace EstreeLint.Grammar

/-! ### Places -/

/-- How far a parse has come: an offset in the text, and how many nodes have been made. -/
structure Place where
  pos : Nat
  size : Nat

namespace Place

instance : LE Place := ⟨fun a b => a.pos ≤ b.pos ∧ a.size ≤ b.size⟩

variable {a b c : Place}

lemma le_def : a ≤ b ↔ a.pos ≤ b.pos ∧ a.size ≤ b.size := Iff.rfl

lemma le_refl (a : Place) : a ≤ a := ⟨Nat.le_refl _, Nat.le_refl _⟩

lemma le_trans (h : a ≤ b) (h' : b ≤ c) : a ≤ c :=
  ⟨Nat.le_trans h.1 h'.1, Nat.le_trans h.2 h'.2⟩

end Place

/-- The place at a state. -/
def State.place (s : State) : Place := ⟨s.scanner.fullStart, s.arena.size⟩

/-! ### Nodes in the arena -/

/-- A name and then its arguments, by the parts they play. -/
def Applies (ns : List Node) : Prop :=
  ∃ name args, ns = name :: args ∧ name.role = .typeName ∧ ∀ n ∈ args, n.role = .typeArgument

/-- The node is in the arena under its number. One with type arguments can be taken apart. -/
structure Live (arena : Array Node) (n : Node) : Prop where
  entry : arena[n.index]? = some (n.withRole .root)
  applies : n.isForm .expressionWithTypeArguments = true → Applies n.children

namespace Live

variable {arena later : Array Node} {n n' : Node}

lemma append (h : Live arena n) : Live (arena ++ later) n where
  entry := by
    have hlt : n.index < arena.size := Array.getElem?_eq_some_iff.1 h.entry |>.1
    rw [Array.getElem?_append_left hlt, h.entry]
  applies := h.applies

end Live

/-! ### The layout -/

inductive Laid (arena : Array Node) : Place → List Node → Place → Prop where
  | nil {a b : Place} (h : a ≤ b) : Laid arena a [] b
  | cons {a b : Place} {n : Node} {ns : List Node} (hpos : a.pos ≤ n.pos) (hlive : Live arena n)
      (inner : Laid arena ⟨n.pos, a.size⟩ n.children ⟨n.stop, n.index⟩)
      (rest : Laid arena ⟨n.stop, n.index + 1⟩ ns b) : Laid arena a (n :: ns) b

namespace Laid

variable {arena : Array Node} {a b c : Place} {n : Node} {ns ms : List Node}

lemma le (h : Laid arena a ns b) : a ≤ b := by
  induction h with
  | nil h => exact h
  | cons hpos _ _ _ ih₁ ih₂ =>
    simp only [Place.le_def] at *
    omega

/-- The nodes may have come behind an earlier place. -/
lemma front (h : Laid arena a ns b) (hc : c ≤ a) : Laid arena c ns b := by
  induction h generalizing c with
  | nil h => exact .nil (Place.le_trans hc h)
  | cons hpos hlive _ rest ih =>
    exact .cons (Nat.le_trans hc.1 hpos) hlive (ih ⟨Nat.le_refl _, hc.2⟩) rest

/-- The nodes have come before any later place. -/
lemma back (h : Laid arena a ns b) (hc : b ≤ c) : Laid arena a ns c := by
  induction h with
  | nil h => exact .nil (Place.le_trans h hc)
  | cons hpos hlive inner _ _ ih => exact .cons hpos hlive inner (ih hc)

lemma append (h : Laid arena a ns b) (h' : Laid arena b ms c) : Laid arena a (ns ++ ms) c := by
  induction h with
  | nil h => exact h'.front h
  | cons hpos hlive inner _ _ ih => exact .cons hpos hlive inner (ih h')

/-- More nodes may be made. -/
lemma grow {later : Array Node} (h : Laid arena a ns b) : Laid (arena ++ later) a ns b := by
  induction h with
  | nil h => exact .nil h
  | cons hpos hlive _ _ ih₁ ih₂ => exact .cons hpos hlive.append ih₁ ih₂

/-- What comes behind a node comes behind the place before it. -/
lemma tail (h : Laid arena a (n :: ns) b) : Laid arena a ns b := by
  cases h with
  | cons hpos _ inner rest =>
    have hle := inner.le
    refine rest.front ?_
    simp only [Place.le_def] at *
    omega

lemma sublist (h : Laid arena a ns b) (hm : ms.Sublist ns) : Laid arena a ms b := by
  induction h generalizing ms with
  | nil h =>
    rw [List.sublist_nil.1 hm]
    exact .nil h
  | cons hpos hlive inner _ _ ih =>
    cases hm with
    | cons _ hm => exact tail (.cons hpos hlive inner (ih hm))
    | cons_cons _ hm => exact .cons hpos hlive inner (ih hm)

/-- The part that a node plays does not matter. -/
lemma congr (h : Laid arena a ns b)
    (hm : ms.map (·.withRole .root) = ns.map (·.withRole .root)) : Laid arena a ms b := by
  induction h generalizing ms with
  | nil h =>
    obtain rfl : ms = [] := by simpa using hm
    exact .nil h
  | @cons a b n ns hpos hlive inner _ _ ih =>
    obtain ⟨n', ms, rfl, e, hm⟩ := List.map_eq_cons_iff.1 hm
    have hindex : n'.index = n.index := by simpa using congrArg Tree.index e
    have hposEq : n'.pos = n.pos := by simpa using congrArg Tree.pos e
    have hstop : n'.stop = n.stop := by simpa using congrArg Tree.stop e
    have hchildren : n'.children = n.children := by simpa using congrArg Tree.children e
    have hform : n'.isForm .expressionWithTypeArguments =
        n.isForm .expressionWithTypeArguments := by
      simpa using congrArg (Tree.isForm · .expressionWithTypeArguments) e
    refine .cons (hposEq ▸ hpos) ⟨?_, ?_⟩ ?_ ?_
    · rw [hindex, e, hlive.entry]
    · rw [hform, hchildren]
      exact hlive.applies
    · rw [hposEq, hchildren, hstop, hindex]
      exact inner
    · rw [hstop, hindex]
      exact ih hm

/-- The parts of a node in its place. -/
lemma inline (h : Laid arena a (n :: ns) b) : Laid arena a (n.children ++ ns) b := by
  cases h with
  | cons hpos _ inner rest =>
    have hfront := inner.front (c := a) ⟨hpos, Nat.le_refl _⟩
    exact hfront.append (rest.front ⟨Nat.le_refl _, Nat.le_succ _⟩)

lemma append_inv (h : Laid arena a (ns ++ ms) b) :
    ∃ c, Laid arena a ns c ∧ Laid arena c ms b := by
  induction ns generalizing a with
  | nil => exact ⟨a, .nil (Place.le_refl a), h⟩
  | cons n ns ih =>
    cases h with
    | cons hpos hlive inner rest =>
      obtain ⟨c, h₁, h₂⟩ := ih rest
      exact ⟨c, .cons hpos hlive inner h₁, h₂⟩

/-- **A node that is made around all the nodes since a place.** -/
lemma wrap (kind : NodeKind) {start stop : Nat} (flags : NodeFlags) (parts : List Part)
    (h : Laid arena ⟨start, a.size⟩ (parts.flatMap Part.bare) ⟨stop, arena.size⟩)
    (hstart : a.pos ≤ start)
    (happ : kind = .form .expressionWithTypeArguments → Applies (parts.flatMap Part.nodes)) :
    let n := Node.ofParts arena.size kind start stop flags parts
    Laid (arena.push n) a [n] ⟨stop, arena.size + 1⟩ := by
  intro n
  have hinner := h.congr (map_withRole_nodes parts)
  have hentry : (arena.push n)[n.index]? = some (n.withRole .root) := Array.getElem?_push_size
  have happlies (hform : n.isForm .expressionWithTypeArguments = true) : Applies n.children :=
    happ (by simpa [n, Tree.isForm] using hform)
  refine .cons hstart ⟨hentry, happlies⟩ ?_ (.nil (Place.le_refl _))
  rw [Array.push_eq_append]
  exact hinner.grow

end Laid

end EstreeLint.Grammar
