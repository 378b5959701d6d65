import EstreeLint.Grammar.Statement
import Mathlib.Tactic.Lemma

/-!
Rules that are tried.

What a rule did is taken back by going to a checkpoint, and nothing is left of it but the
parentheses that it has ruled out on the way. Those are remembered by their places alone, while
whether a parenthesis opens the parameters of an arrow function also depends on what the constructs
around it permit. So the memory may change what is read, though only where it is asked twice.
-/

namespace EstreeLint.Grammar

open Parse

/-! ### What is left of a rule -/

/-- **Nothing is left of a rule that is tried** but the parentheses that it has ruled out, and every
rule leaves the conditions and the depth as it found them. -/
theorem speculation_transparent {α β : Type} (p : Parse α) (q : Parse (Option β)) (r : Runner)
    (s : State) :
    (lookAhead p).run r s = ((p.run r s).1, { s with notArrow := (p.run r s).2.notArrow }) ∧
    (attempt q).run r s =
      (match (q.run r s).1 with
        | none => (none, { s with notArrow := (q.run r s).2.notArrow })
        | some b => (some b, (q.run r s).2)) ∧
    (p.run r s).2.context = s.context ∧ (p.run r s).2.depth = s.depth := by
  have hp := p.extends_run r s
  refine ⟨run_lookAhead p r s, ?_, hp.context, hp.depth⟩
  cases h : (q.run r s).1 with
  | none => exact run_attempt_of_none h
  | some b =>
    rw [run_attempt_of_some h]
    exact Prod.ext h rfl

/-! ### What is remembered of parentheses -/

/-- However deep rules are nested, the runner that forgets agrees with the one that remembers. -/
lemma agrees_runner (fuel : Nat) : (runner fuel true).Agrees (runner fuel false) := by
  induction fuel with
  | zero => exact ⟨rfl, fun _ _ _ => rfl⟩
  | succ fuel ih => exact ⟨rfl, fun g s hn => (rule g).agrees_run ih s hn⟩

/-- **Where no parenthesis is ruled out twice, remembering them changes nothing**: the tree, the
errors and all else are those of a parse that tries every parenthesis again. -/
theorem parseSource_forgetting (source : Source) (variant : Variant)
    (h : (parseSource source variant).2.notArrow.Nodup) :
    parseSource source variant false = parseSource source variant :=
  sourceFile.agrees_run (agrees_runner _) _ h

/-- Two parentheses are ruled out here, one inside the other. -/
def nestedParens : Source := "(a, (b))".toList

theorem nestedParens_forgetting :
    (parseSource nestedParens .standard).2.notArrow = [4, 0] ∧
      parseSource nestedParens .standard false = parseSource nestedParens .standard := by
  have hruled : (parseSource nestedParens .standard).2.notArrow = [4, 0] := by decide +kernel
  have hnodup : (parseSource nestedParens .standard).2.notArrow.Nodup := by
    rw [hruled]
    decide
  exact ⟨hruled, parseSource_forgetting nestedParens .standard hnodup⟩

/-- The inner parenthesis opens parameters, but not as a part of what the outer one is first taken
for: there `in` is no operator. -/
def arrowInParens : Source := "for ((x = (a = b in c) => d);;);".toList

/-- **In general remembering changes what is read.** The text is without errors to a parse that
tries the parenthesis again. -/
theorem arrowInParens_forgetting :
    (parseSource arrowInParens .standard false).2.errors = [] ∧
      (parseSource arrowInParens .standard).2.errors ≠ [] := by
  constructor <;> decide +kernel

end EstreeLint.Grammar
