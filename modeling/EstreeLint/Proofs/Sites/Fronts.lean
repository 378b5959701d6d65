import EstreeLint.Grammar.Statement
import EstreeLint.Proofs.Grammar.Types

/-!
Where types start, and what a binding is, whether or not the text is without errors.

A type starts where it is read: each rule for one makes its node there, or passes on what a rule at
its own front has given. A binding is a name or a pattern.
-/

namespace EstreeLint.Grammar

open Parse

variable {α β : Type} {R : Runner} {here : Nat}

/-! ### Nodes at a place -/

/-- From any state where the token at hand starts at `here` the rule gives a node that does. -/
class StartsAt (R : Runner) (here : Nat) (p : Parse Node) : Prop where
  pos_run (s : State) : s.scanner.fullStart = here → (p.run R s).1.pos = here

/-- Whatever has been read, the rule makes its node at `here`. -/
class MakesAt (R : Runner) (here : Nat) (p : Parse Node) : Prop where
  pos_run (s : State) : (p.run R s).1.pos = here

section MakesAt

instance (kind : NodeKind) (stop : Nat) (parts : List Part) (flags : NodeFlags) :
    MakesAt R here (node kind here stop parts flags) := ⟨fun _ => rfl⟩

instance (form : Form) (parts : List Part) (flags : NodeFlags) :
    MakesAt R here (finish form here parts flags) := ⟨fun _ => rfl⟩

instance {p : Parse α} {f : α → Parse Node} [∀ a, MakesAt R here (f a)] :
    MakesAt R here (p >>= f) := ⟨fun s => MakesAt.pos_run (p := f (p.run R s).1) _⟩

instance {c : Prop} [Decidable c] {p q : Parse Node} [MakesAt R here p] [MakesAt R here q] :
    MakesAt R here (if c then p else q) := by
  split <;> infer_instance

/-- What is replaced by nodes at one place stays there. -/
lemma MakesAt.iterate {g : Node → Parse (Option Node)} {n : Node} (hn : n.pos = here)
    (hg : ∀ n s, n.pos = here → ∀ m, ((g n).run R s).1 = some m → m.pos = here) :
    MakesAt R here (iterate g n) where
  pos_run s := by
    have upTo (k : Nat) (n : Node) (hn : n.pos = here) (s : State) :
        ((iterateUpTo g k n).run R s).1.pos = here := by
      induction k generalizing n s with
      | zero => exact hn
      | succ k ih =>
        rw [iterateUpTo, run_bind]
        cases h : ((g n).run R s).1 with
        | none => exact hn
        | some m => exact ih m (hg n s hn m h) _
    exact upTo _ n hn _

end MakesAt

namespace StartsAt

instance (priority := low) {p : Parse Node} [MakesAt R here p] : StartsAt R here p :=
  ⟨fun s _ => MakesAt.pos_run s⟩

lemma start {f : Nat → Parse Node} (h : StartsAt R here (f here)) :
    StartsAt R here (pos >>= f) where
  pos_run s hs := by
    have hpos : (pos.run R s) = (here, s) := Prod.ext hs rfl
    rw [run_bind, hpos]
    exact h.pos_run s hs

lemma look {p : Parse α} [Peeks p] {f : α → Parse Node} (h : ∀ a, StartsAt R here (f a)) :
    StartsAt R here (p >>= f) where
  pos_run s hs := (h _).pos_run _ (by rw [Peeks.scanner_run]; exact hs)

lemma sub {p : Parse Node} [hp : StartsAt R here p] {f : Node → Parse Node}
    (h : ∀ n, n.pos = here → MakesAt R here (f n)) : StartsAt R here (p >>= f) where
  pos_run s hs := (h _ (hp.pos_run s hs)).pos_run _

lemma ite {c : Prop} [Decidable c] {p q : Parse Node} (hp : StartsAt R here p)
    (hq : StartsAt R here q) : StartsAt R here (if c then p else q) := by
  split <;> assumption

lemma lookIf {p : Parse Bool} [Peeks p] {q₁ q₂ : Parse Node} (h₁ : StartsAt R here q₁)
    (h₂ : StartsAt R here q₂) : StartsAt R here (p >>= fun b => if b = true then q₁ else q₂) :=
  look fun _ => ite h₁ h₂

lemma inContext {add drop : Context} {p : Parse Node} (h : StartsAt R here p) :
    StartsAt R here (withContext add drop p) where
  pos_run s hs := h.pos_run { s with context := s.context.change add drop } hs

lemma nest {tooDeep p : Parse Node} (h : StartsAt R here tooDeep) (hp : StartsAt R here p) :
    StartsAt R here (nested tooDeep p) := by
  refine look fun _ => ite (look fun _ => h) ⟨fun s hs => ?_⟩
  exact hp.pos_run { s with depth := s.depth + 1 } hs

end StartsAt

lemma makesAt_pure {n : Node} (h : n.pos = here) : MakesAt R here (pure n) := ⟨fun _ => h⟩

/-! ### Leaves and names -/

section Types

instance (k : NodeKind) (payload : Payload) : StartsAt R here (leaf k payload) :=
  .start inferInstance

instance : StartsAt R here tokenNode := .start inferInstance

instance : StartsAt R here missing := .start inferInstance

instance : StartsAt R here literal :=
  .look fun _ => .look fun _ => .ite (.look fun _ => .look fun _ => inferInstance)
    (.look fun _ => inferInstance)

instance : StartsAt R here word := .look fun _ => inferInstance

instance : StartsAt R here identifier :=
  .lookIf inferInstance (.lookIf (.look fun _ => inferInstance) (.look fun _ => inferInstance))

instance : StartsAt R here thisType := .start inferInstance

/-! ### Types -/

instance : StartsAt R here typeReference := .start inferInstance

instance : StartsAt R here typeQuery := .start inferInstance

set_option synthInstance.maxSize 400 in
instance : StartsAt R here importType := .start (by dsimp only; infer_instance)

instance : StartsAt R here literalType := .start inferInstance

instance : StartsAt R here tupleType := .start inferInstance

instance : StartsAt R here mappedType := .start inferInstance

instance : StartsAt R here typeLiteral := .start inferInstance

instance : StartsAt R here parenthesizedType := .start inferInstance

instance : StartsAt R here functionType := .start inferInstance

instance (form spanForm : Form) (substitution : Parse Node) :
    StartsAt R here (template form spanForm substitution) := .start inferInstance

instance : StartsAt R here thisTypeOrPredicate := by
  refine .start (.sub fun this h => ?_)
  have := makesAt_pure (R := R) h
  infer_instance

instance : StartsAt R here basicType := by
  refine .look fun k => ?_
  split
  all_goals first
    | exact inferInstance
    | exact .lookIf inferInstance inferInstance
    | exact .look fun _ => .ite inferInstance inferInstance
    | exact .ite inferInstance (.look fun _ => inferInstance)

instance : StartsAt R here bracketedType := by
  refine .start (.sub fun type h => .iterate h fun n s hn m hm => ?_)
  unfold brackets at hm
  rw [run_bind] at hm
  split at hm
  · cases hm
  rw [run_bind] at hm
  split at hm
  · rw [run_bind] at hm
    split at hm <;> (cases hm; rfl)
  · cases hm

instance : StartsAt R here typeOperator := by
  refine .start (.look fun k => ?_)
  split
  · infer_instance
  · infer_instance
  · infer_instance
  · infer_instance
  · exact .inContext inferInstance

lemma typeList_startsAt {operator : TokenKind} {form : Form} {constituent : Parse Node}
    [h : StartsAt R here constituent] : StartsAt R here (typeList operator form constituent) := by
  refine .start ⟨fun s hs => ?_⟩
  rw [run_bind]
  cases hat : ((accept operator).run R s).1 with
  | true =>
    simp only [if_true, Bool.not_true, Bool.false_and, Bool.false_eq_true, if_false]
    exact MakesAt.pos_run _
  | false =>
    -- the operator is not there, so the first constituent is at the front
    have hsame : ((accept operator).run R s).2 = s := by
      change ((isAt operator >>= fun b => if b = true then _ else _).run R s).1 = _ at hat
      change ((isAt operator >>= fun b => if b = true then _ else _).run R s).2 = _
      rw [run_bind] at hat ⊢
      split at hat
      · cases hat
      · rw [if_neg ‹_›]
        rfl
    have hfirst := h.pos_run s hs
    rw [hsame]
    simp only [Bool.false_eq_true, if_false, Bool.not_false, Bool.true_and]
    rw [run_bind]
    have := makesAt_pure (R := R) hfirst
    exact MakesAt.pos_run _

instance : StartsAt R here intersectionType := typeList_startsAt

instance : StartsAt R here unionType := typeList_startsAt

instance : StartsAt R here anyType := by
  refine .lookIf inferInstance (.start (.sub fun checked h => ?_))
  have := makesAt_pure (R := R) h
  infer_instance

instance : StartsAt R here type := .nest inferInstance inferInstance

end Types

/-! ### Bindings -/

/-- A name, or a pattern of names. -/
def Binds (n : Node) : Prop :=
  n.kind = .token .identifier ∨ n.kind = .form .arrayBindingPattern ∨
    n.kind = .form .objectBindingPattern

/-- Whatever has been read, the rule gives a name or a pattern. -/
class MakesBinding (R : Runner) (p : Parse Node) : Prop where
  binds_run (s : State) : Binds (p.run R s).1

section MakesBinding

instance (start stop : Nat) (parts : List Part) (flags : NodeFlags) :
    MakesBinding R (node (.token .identifier) start stop parts flags) := ⟨fun _ => .inl rfl⟩

instance (start : Nat) (parts : List Part) (flags : NodeFlags) :
    MakesBinding R (finish .arrayBindingPattern start parts flags) := ⟨fun _ => .inr (.inl rfl)⟩

instance (start : Nat) (parts : List Part) (flags : NodeFlags) :
    MakesBinding R (finish .objectBindingPattern start parts flags) := ⟨fun _ => .inr (.inr rfl)⟩

instance {p : Parse α} {f : α → Parse Node} [∀ a, MakesBinding R (f a)] :
    MakesBinding R (p >>= f) := ⟨fun s => MakesBinding.binds_run (p := f (p.run R s).1) _⟩

instance {c : Prop} [Decidable c] {p q : Parse Node} [MakesBinding R p] [MakesBinding R q] :
    MakesBinding R (if c then p else q) := by
  split <;> infer_instance

instance {add drop : Context} {p : Parse Node} [MakesBinding R p] :
    MakesBinding R (withContext add drop p) :=
  ⟨fun s => MakesBinding.binds_run { s with context := s.context.change add drop }⟩

instance : MakesBinding R missing := by unfold missing; infer_instance

instance : MakesBinding R word := by unfold word leaf; infer_instance

instance : MakesBinding R identifier := by unfold identifier; infer_instance

instance : MakesBinding R identifierName := by unfold identifierName; infer_instance

instance : MakesBinding R binding := by
  unfold binding
  refine ⟨fun s => ?_⟩
  simp only [run_bind]
  split
  · exact .inr (.inl rfl)
  · exact .inr (.inr rfl)
  · exact MakesBinding.binds_run _

end MakesBinding

/-! ### Goals -/

/-- A type that is reached starts where it is read, and a binding is a name or a pattern. -/
class FrontGoals (R : Runner) : Prop where
  type_pos (s : State) : ((reach .type).run R s).1.pos = s.scanner.fullStart
  binding_binds (s : State) : Binds ((reach .binding).run R s).1

instance [FrontGoals R] : StartsAt R here (reach .type) := ⟨fun s h => h ▸ FrontGoals.type_pos s⟩

instance [FrontGoals R] : MakesBinding R (reach .binding) := ⟨FrontGoals.binding_binds⟩

lemma run_reach (g : Goal) (s : State) :
    (reach g).run R s = ((R.run g s).1.elim missing pure).run R (R.run g s).2 := by
  unfold reach
  rw [run_bind]
  have hrun : (reach? g).run R s = R.run g s := rfl
  rw [hrun]
  cases (R.run g s).1 <;> rfl

instance [FrontGoals R] : StartsAt R here typeOrPredicate :=
  .start (.look fun _ => .ite inferInstance (.look fun _ => .ite inferInstance inferInstance))

theorem frontGoals_runner (fuel : Nat) (remembers : Bool) :
    FrontGoals (runner fuel remembers) := by
  cases fuel with
  | zero =>
    have hnone (g : Goal) (s : State) : ((runner 0 remembers).run g s).1 = none := rfl
    constructor <;> intro s <;> rw [run_reach, hnone]
    · have hhalt : ((runner 0 remembers).run .type s).2.scanner = s.scanner.halt :=
        scanner_giveUp .idle s
      exact (congrArg Scanner.fullStart hhalt).trans s.scanner.fullStart_halt
    · exact .inl rfl
  | succ fuel =>
    constructor <;> intro s <;> rw [run_reach]
    · exact StartsAt.pos_run (p := type) s rfl
    · exact MakesBinding.binds_run (p := binding) s

end EstreeLint.Grammar
