import EstreeLint.Proofs.Grammar.Statements
import EstreeLint.SourceFile

/-!
What a parse without errors builds.

The rules reach their goals because each of them does where the rules in it do. The tokens that
have been taken spell the statements of the file from the front of the text on, and behind the
last of them there is only trivia.
-/

namespace EstreeLint.Grammar

open Parse
open Estree (Usable)

variable {α : Type} {text : Source} {R : Runner} {K K' : Scanner → Prop}

/-! ### Goals -/

/-- Every rule reaches its goal where the rules in it do. -/
theorem rule_builds [Reaches text R] (g : Goal) :
    Builds text R Anywhere (rule g) fun o => ∃ n, o = some n ∧ Reached g n := by
  cases g with
  | statement => exact statement_builds
  | assignment returnType => exact (assignment_builds returnType).some
  | binary above => exact (binary_builds above).some
  | simpleUnary => exact simpleUnary_builds.some
  | leftHandSide => exact leftHandSide_builds.some
  | primary => exact primary_builds.some
  | element inExpression => exact (element_builds inExpression).some
  | type => exact type_builds.some
  | typeOperator => exact typeOperator_builds.some
  | binding => exact binding_builds.some
  | innerNamespace namespaceWord => exact (innerNamespace_builds namespaceWord).some

/-- A parse that is nested too deep reports it, so a goal that is reached has been built. -/
theorem reaches_runner (fuel : Nat) : Reaches text (runner fuel) := by
  induction fuel with
  | zero =>
    refine ⟨fun g => ⟨fun m _ s _ _ hc => ?_⟩⟩
    have hclean : (giveUp.run .idle s).2.errors = [] :=
      clean_of_clean (f := fun _ => pure (none : Option Node)) hc
    exact absurd hclean (Goes.errors_giveUp_ne_nil s)
  | succ fuel ih => exact ⟨fun g => ⟨(rule_builds (R := runner fuel) g).goes⟩⟩

/-! ### The end of a list -/

/-- A rule is repeated until it gives nothing. -/
lemma many_leads {p : Parse (Option α)}
    (h : ∀ s, (p.run R s).2.errors = [] → (p.run R s).1 = none → K' (p.run R s).2.scanner) :
    Leads R K (many p) K' := by
  have upTo (n : Nat) : Leads R Anywhere (manyUpTo p n) K' := by
    induction n with
    | zero => exact fun s _ hc => absurd (clean_of_clean hc) (Goes.errors_giveUp_ne_nil s)
    | succ n ih =>
      intro s hk hc
      have hclean := clean_of_clean hc
      unfold manyUpTo at hc ⊢
      rw [run_bind] at hc ⊢
      cases hrun : (p.run R s).1 with
      | none => exact h s hclean hrun
      | some a =>
        rw [hrun] at hc
        exact ih _ trivial (clean_of_clean hc)
  exact fun s _ hc => upTo _ s trivial hc

/-- A list that nothing else stops runs to the end of the text. -/
lemma listUntil_leads {element : Parse (Option Node)} :
    Leads R K (listUntil [] element) (At .endOfFile) := by
  intro s hk hc
  refine many_leads (K := Anywhere) (fun s hc hnone => ?_) s trivial hc
  unfold elementBefore at hc hnone ⊢
  rw [run_bind] at hc hnone ⊢
  split at hnone
  · next h =>
    rw [if_pos h]
    change s.scanner.kind = .endOfFile
    simpa using Tells.tells R s h
  · simp only [run_bind] at hnone
    split at hnone <;> cases hnone

/-! ### The file -/

/-- The tokens that a parse takes, in the order of the text. -/
def tokensTaken (text : Source) (variant : Variant) : List Taken :=
  (parseSource text variant).2.taken.reverse

/-- The root of a tree: its parts are spelled by the tokens, and behind them there is trivia. -/
structure IsRoot (text : Source) (root : Node) (ts : List Taken) : Prop where
  kind : root.kind = .form .sourceFile
  pos : root.pos = 0
  stop : root.stop = Text.bytes text
  spelled : ∃ q, Spelled text 0 root.children ts q ∧ Text.IsBoundary text q ∧
    Trivia.skip text q = Text.bytes text
  statements : ∀ n ∈ root.partsOf .statement, Usable n

theorem parseSource_isRoot {variant : Variant} (he : ValidEscapes text)
    (hc : (parseSource text variant).2.errors = []) :
    IsRoot text (parseSource text variant).1 (tokensTaken text variant) := by
  let R := runner (fuelFor (Text.bytes text))
  let s := State.ofSource text variant
  let l := (listUntil [] (reach? .statement)).run R s
  have : Reaches text R := reaches_runner _
  have hclean : l.2.errors = [] := clean_of_clean hc
  have hsound : s.scanner.Sound text :=
    Scanner.scan_sound_of_on he rfl rfl (Cursor.on_front text)
  have hmark : s.mark = ⟨0, []⟩ := congrArg (Mark.mk · []) (Scanner.scan_fullStart _)
  have hbuilds : Builds text R Anywhere (listUntil [] (reach? .statement)) _ :=
    listUntil_builds (reach?_usable .statement)
  obtain ⟨hsince, husable⟩ := hbuilds.goes s.mark he s (.refl hsound) ⟨trivial, rfl⟩ hclean
  have hend : l.2.scanner.kind = .endOfFile := listUntil_leads (K := Anywhere) s trivial hclean
  obtain ⟨ts, hts, hspelled⟩ := hsince.spelled
  rw [hmark] at hts hspelled
  have htaken : tokensTaken text variant = ts := by
    have hlast : (parseSource text variant).2.taken = l.2.taken := rfl
    rw [tokensTaken, hlast, hts, List.append_nil, List.reverse_reverse]
  have hstart := hsince.sound.tokenStart_eq
  rw [hend, if_neg (by decide), (hsince.sound.ends hend).1] at hstart
  obtain ⟨id, hroot⟩ : ∃ id, (parseSource text variant).1 =
      .ofParts id (.form .sourceFile) 0 (Text.bytes text) {} [.many .statement l.1] :=
    ⟨_, congrArg (fun source => Node.ofParts _ _ 0 (Text.bytes source) _ _) hsince.sound.source⟩
  rw [hroot, htaken]
  refine ⟨rfl, rfl, rfl, ⟨_, hspelled.congr ?_, hsince.sound.boundary, hstart.symm⟩, ?_⟩
  · exact (map_withRole_nodes [.many .statement l.1]).trans (by simp [l])
  · simpa [Node.partsOf_ofParts] using husable

end EstreeLint.Grammar
