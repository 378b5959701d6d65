import EstreeLint.Proofs.Grammar.Operations
import EstreeLint.Proofs.Progress.Expressions

/-!
The rules for operators, arrow functions and assignments go forward. Operands that begin at the
token at hand are goals, so these rules have ranks above that of an operand.
-/

namespace EstreeLint.Grammar

open Parse

variable {ρ : Nat} {K : Scanner → Prop}

set_option synthInstance.maxSize 20000

/-! ### Unary and binary operators -/

instance : Proceeds ρ operandFollowsOnLine := by unfold operandFollowsOnLine; infer_instance

instance : Proceeds ρ atAwait := by unfold atAwait; infer_instance

instance : Proceeds ρ atYield := by unfold atYield; infer_instance

instance : Proceeds ρ atElement := by unfold atElement; infer_instance

instance : Proceeds (ρ + 1) updateExpression where
  starts := by
    refine .sub fun start => .token fun operator => .iteOf (fun h => .take (.opened ?_)) fun _ => ?_
    · grind
    · exact .sub fun b => .ite .named (.sub fun operand => .named)

instance (form : Form) (parts : List Part) (r : Role) : Opened HasToken (applied form parts r) := by
  unfold applied
  infer_instance

instance : Opened HasToken typeAssertion := by
  unfold typeAssertion
  infer_instance

instance : Proceeds (ρ + 1) simpleUnary where
  starts := .token fun operator => by
    split
    iterate 7 exact .opened
    · exact .look fun _ => .ite .named .opened
    · exact .look fun _ => .ite .opened .named
    · exact .named

lemma operatorLink_starts (above start : Nat) (left : Node) :
    Starts ρ K (operatorLink above start left) fun o _ => o = none := by
  have hend : takesOperator above .endOfFile = false := rfl
  refine .reread fun operator => .iteOf (fun _ => .pure) fun htakes => ?_
  have hkind (σ : Scanner) (h : At operator σ) : σ.kind ≠ .endOfFile := by
    rintro he
    simp_all
  refine .look fun noIn => .ite .pure (.ite (.look fun b => .ite .pure ?_) ?_)
  · exact .take (.opened hkind)
  · exact .take (.opened hkind)

instance (above : Nat) : Proceeds (ρ + 1) (binary above) := by
  have (start : Nat) (left : Node) : Proceeds (ρ + 1) (iterate (operatorLink above start) left) :=
    .iterate (operatorLink_starts above start) left
  unfold binary
  infer_instance

/-! ### Arrow functions -/

instance (second : TokenKind) : Proceeds ρ (arrowGuessInParens second) := by
  have hrest : Starts ρ Anywhere (nextToken >>= fun
      | .colon | .comma | .equals | .closeParen => return ArrowGuess.maybe
      | .question => do
        next
        if ← atAny [.colon, .comma, .equals, .closeParen] then return .yes else return .no
      | _ => return .no) fun _ _ => True := .sub fun k => by split <;> exact .named
  unfold arrowGuessInParens
  split
  · infer_instance
  · infer_instance
  · infer_instance
  · infer_instance
  · have : Proceeds ρ _ := ⟨hrest⟩
    infer_instance

instance : Proceeds ρ arrowGuessInAngles := by
  have hahead : Proceeds ρ (lookAhead do
      discard (accept .constKw)
      match ← nextToken with
      | .extendsKw =>
        next
        return !(← atAny [.equals, .greaterThan, .slash])
      | .comma | .equals => return true
      | _ => return false) :=
    .ahead (.sub fun _ => .sub fun k => by split <;> exact .named)
  unfold arrowGuessInAngles
  infer_instance

instance : Proceeds ρ arrowGuess := by
  have hlast : Starts ρ Anywhere (token >>= fun
      | .openParen => nextToken >>= arrowGuessInParens
      | .lessThan => do
        next
        arrowGuessInAngles
      | _ => return ArrowGuess.no) fun _ _ => True := .sub fun k => by split <;> exact .named
  unfold arrowGuess
  exact .ahead (.sub fun b => .ite (.sub fun b => .ite .named hlast) hlast)

instance (async returnType : Bool) : Proceeds 4 (arrowBody async returnType) := by
  unfold arrowBody
  dsimp only
  infer_instance

lemma parenthesizedArrow_starts (sure returnTypeAllowed : Bool) :
    Starts ρ K (parenthesizedArrow sure returnTypeAllowed) fun o _ => o = none := by
  have hparams (add : Context) : Starts ρ Anywhere (withContext add { awaiting := true } do
      let typeParams ← typeParameters
      let params ← if ← isAt .openParen then some <$> parameters else pure none
      return (typeParams, params)) fun x _ => x.2 = none :=
    .inContext (.sub fun typeParams => .isAt (.take .opened) (.pureThen .pure))
  refine .sub fun start => .sub fun mods => .sub fun before => .bind (hparams _) ?_
  rintro ⟨typeParams, params⟩
  cases params with
  | none => exact .pure
  | some params =>
    dsimp only
    exact .rest

lemma parenthesizedArrow?_starts (returnTypeAllowed : Bool) :
    Starts ρ K (parenthesizedArrow? returnTypeAllowed) fun o _ => o = none := by
  refine .sub fun guess => ?_
  split
  · exact .pure
  · exact .triedOnly (parenthesizedArrow_starts _ _)
  · exact .unlessRuledOut (parenthesizedArrow_starts _ _)

instance (start : Nat) (name : Node) (mods : Option NodeList) (returnType : Bool) :
    Opened HasToken (simpleArrow start name mods returnType) where
  starts _ := .bind node_starts fun _ => .take (.opened fun _ h => h.2)

instance : Proceeds ρ atAsyncArrow := by unfold atAsyncArrow; infer_instance

lemma asyncArrow?_starts (returnType : Bool) :
    Starts ρ K (asyncArrow? returnType) fun o _ => o = none := by
  refine .askIf (.look fun start => .bind asyncModifier_starts fun mods => .rest ?_) .pure
  grind

/-! ### Assignments -/

instance : Opened HasToken yieldExpression := by
  unfold yieldExpression
  infer_instance

instance (start : Nat) (condition : Node) (returnType : Bool) :
    Proceeds ρ (conditionalRest start condition returnType) where
  starts := .acceptIf .named

instance (returnType : Bool) : Proceeds (ρ + 1) (assignmentRest returnType) where
  starts := by
    refine .sub fun start => .sub fun left => .reading (fun σ => σ.kind == .equalsGreaterThan) ?_
    refine fun arrow => .iteOf (fun h => .opened ?_) fun _ =>
      .ite (.reread fun operator => ?_) .named
    · grind
    · refine .iteOf (fun h => .take (.opened ?_)) fun _ => .named
      rintro σ rfl he
      exact absurd (he ▸ h) (by decide)

instance (returnType : Bool) : Proceeds (ρ + 1) (assignment returnType) where
  starts := by
    refine .nest .named (.askIf .opened ?_)
    refine .found (parenthesizedArrow?_starts returnType) ?_
    exact .found (asyncArrow?_starts returnType) .named

end EstreeLint.Grammar
