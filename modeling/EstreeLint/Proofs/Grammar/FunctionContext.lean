import EstreeLint.Proofs.Grammar.Goes
import EstreeLint.SourceFile

/-!
`await` and `yield` inside a function.

A function is read with the conditions that its marks ask for added first, and then those dropped
that it does not take over from around it. These are the same conditions, so nothing is left of what
the marks ask for: inside a function the words are operators only where what follows says so.
-/

namespace EstreeLint.Grammar

open Parse

variable {α : Type}

/-! ### Conditions -/

lemma withContext_congr {add add' drop : Context} (p : Parse α)
    (h : ∀ c : Context, c.change add drop = c.change add' drop) :
    withContext add drop p = withContext add' drop p := by
  have hrun : (withContext add drop p).run = (withContext add' drop p).run := by
    funext r s
    simp only [withContext, h]
  cases hp : withContext add drop p
  cases hq : withContext add' drop p
  simp_all

/-- Nothing is left of the marks of a function. -/
lemma change_functionContext (c : Context) (generator async : Bool) :
    c.change (functionContext generator async) functionScope =
      { c with yielding := false, awaiting := false } := by
  simp [Context.change, functionContext, functionScope]

/-- What is added and dropped again may as well not be added. -/
lemma change_awaiting (c : Context) {drop : Context} (async : Bool) (h : drop.awaiting = true) :
    c.change { awaiting := async } drop = c.change {} drop := by
  simp [Context.change, h]

/-! ### Questions that leave the state alone -/

section

variable {p q : Parse Bool} {a b : Bool} {r : Runner} {s : State}

lemma run_and_of_stays (hp : p.run r s = (a, s)) (hq : q.run r s = (b, s)) :
    (p <&&> q).run r s = (a && b, s) := by
  rw [run_and, hp, hq]
  cases a <;> rfl

lemma run_or_of_stays (hp : p.run r s = (a, s)) (hq : q.run r s = (b, s)) :
    (p <||> q).run r s = (a || b, s) := by
  rw [run_or, hp, hq]
  cases a <;> rfl

end

/-- A word or a literal comes next, on the line of the token at hand. -/
def operandOnLine (σ : Scanner) : Bool :=
  let following := σ.scan
  !following.flags.precedingLineBreak &&
    (following.kind.isIdentifierOrKeyword ||
      [.stringLiteral, .numericLiteral, .bigIntLiteral].contains following.kind)

lemma run_operandFollowsOnLine (r : Runner) (s : State) :
    operandFollowsOnLine.run r s = (operandOnLine s.scanner, s) := by
  let t := (next.run r s).2
  have hname : atLiteralName.run r t =
      (t.scanner.kind.isIdentifierOrKeyword ||
        [.stringLiteral, .numericLiteral, .bigIntLiteral].contains t.scanner.kind, t) :=
    run_or_of_stays rfl rfl
  have hasked : (sameLine <&&> atLiteralName).run r t = (operandOnLine s.scanner, t) :=
    run_and_of_stays rfl hname
  rw [operandFollowsOnLine, run_lookAhead, run_bind]
  exact congrArg (fun x => (x.1, { s with notArrow := x.2.notArrow })) hasked

lemma run_atAwait (r : Runner) (s : State) :
    atAwait.run r s =
      (s.scanner.kind == .awaitKw && (s.context.awaiting || operandOnLine s.scanner), s) :=
  run_and_of_stays rfl (run_or_of_stays rfl (run_operandFollowsOnLine r s))

lemma run_atYield (r : Runner) (s : State) :
    atYield.run r s =
      (s.scanner.kind == .yieldKw && (s.context.yielding || operandOnLine s.scanner), s) :=
  run_and_of_stays rfl (run_or_of_stays rfl (run_operandFollowsOnLine r s))

/-! ### Inside a function -/

/-- **The marks of a function do not matter inside it**: it is read as one without marks, and
`await` and `yield` are operators in it only before a word or a literal on the same line. -/
theorem function_marks_ignored (generator async returnType : Bool) (p : Parse α) (r : Runner)
    (s : State) :
    withContext (functionContext generator async) functionScope p =
      withContext {} functionScope p ∧
    withContext { awaiting := async } { awaiting := true } p =
      withContext {} { awaiting := true } p ∧
    arrowBody async returnType = arrowBody false returnType ∧
    let inside :=
      { s with context := s.context.change (functionContext generator async) functionScope }
    atAwait.run r inside =
      (s.scanner.kind == .awaitKw && operandOnLine s.scanner, inside) ∧
    atYield.run r inside =
      (s.scanner.kind == .yieldKw && operandOnLine s.scanner, inside) := by
  have hmarks (c : Context) : c.change (functionContext generator async) functionScope =
      c.change {} functionScope :=
    (change_functionContext c generator async).trans (change_functionContext c false false).symm
  have harrow : withContext { awaiting := async } { awaiting := true } p =
      withContext {} { awaiting := true } p :=
    withContext_congr p fun c => change_awaiting c async rfl
  refine ⟨withContext_congr p hmarks, harrow, ?_, ?_, ?_⟩
  · simp only [arrowBody]
    rw [withContext_congr block fun c => change_awaiting c async rfl,
      withContext_congr (reach _) fun c => change_awaiting c async rfl]
  · rw [run_atAwait, change_functionContext, Bool.false_or]
  · rw [run_atYield, change_functionContext, Bool.false_or]

/-- The operand of `await` is in parentheses. -/
def awaitBeforeParens : Source := "async function f() \x7b await (x) \x7d".toList

/-- **So a function without marks is what is read.** The word and the parentheses are a call. -/
theorem awaitBeforeParens_call :
    let file := SourceFile.parse "a.ts" awaitBeforeParens
    file.errors = [] ∧ file.root.nodes.any (·.isForm .awaitExpression) = false ∧
      file.root.nodes.any (·.isForm .callExpression) = true := by
  refine ⟨?_, ?_, ?_⟩ <;> decide +kernel

end EstreeLint.Grammar
