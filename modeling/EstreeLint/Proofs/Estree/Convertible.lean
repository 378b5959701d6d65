import EstreeLint.Proofs.Estree.Totality
import EstreeLint.Proofs.Grammar.Parsed

/-!
Which files convert that the parser accepts.

The grammar lets few nodes through that no rule is for. A file that parses without errors converts
exactly if its conversion comes to none of them.
-/

namespace EstreeLint.Estree

open Grammar (Spelled)

variable {file : SourceFile} {text : Source} {p q : Nat} {n : Node} {ns : List Node}
  {ts : List Grammar.Taken}

/-! ### Nodes of an accepted tree -/

/-- A leaf that a rule is for needs nothing else. -/
lemma fit_of_token {k : TokenKind} (hk : n.kind = .token k) (hu : Usable n) : Fit n := by
  have hr := hu.ruled
  rw [hk] at hr
  rcases Bool.or_eq_true_iff.1 hr with h | h
  · refine .inr fun r k' => ?_
    simp only [needs, Tree.kind_withRole, hk]
    exact supplied_fact.2 h
  · exact .inl (.inr (.inl (by simpa [Tree.isToken, hk] using h)))

/-- A usable node anywhere in what has been spelled is fit. -/
lemma fit_of_spelled (h : Spelled text p ns ts q) (hn : n ∈ Tree.forestNodes ns) (hu : Usable n) :
    Fit n := by
  induction h with
  | nil p => simp [Tree.forestNodes] at hn
  | skip ht _ ih => exact ih hn
  | leaf hk hc hp hs hstart ht _ ih =>
    rw [Tree.forestNodes, Tree.nodes_eq, Tree.descendants, hc] at hn
    rcases List.mem_cons.1 hn with rfl | hn
    · exact fit_of_token hk hu
    · exact ih hn
  | form hk hp inner hfit _ ih₁ ih₂ =>
    rw [Tree.forestNodes, Tree.nodes_eq] at hn
    rcases List.mem_cons.1 hn with rfl | hn
    · exact hfit hu
    · rcases List.mem_append.1 hn with hn | hn
      · exact ih₁ hn
      · exact ih₂ hn

/-- What a fit node needs is there, unless it is stray. -/
lemma supplied_of_fit {s : Site} (h : Fit s.node) (hs : ¬ Stray s.node) : Supplied (needs s) := by
  obtain ⟨k, ⟨label, parts⟩⟩ := s
  exact h.resolve_left hs label.role k

/-- As long as the conversion comes to no stray node, it comes to usable nodes of the tree. -/
lemma supplied_of_visited (hroot : Grammar.IsRoot text file.root ts)
    (hstray : ∀ s, Visited file s → ¬ Stray s.node) {s : Site} (hs : Visited file s) :
    Supplied (needs s) := by
  obtain ⟨q, hspelled, -⟩ := hroot.spelled
  have husable : Usable s.node ∧ s.node ∈ file.root.descendants := by
    induction hs with
    | statement hm =>
      exact ⟨hroot.statements _ hm, Tree.mem_descendants_of_mem (Below.mem_of_partsOf hm)⟩
    | part hs ht ih =>
      have hfit := fit_of_spelled hspelled ih.2 ih.1
      obtain ⟨t, ht', hu⟩ := supplied_of_fit hfit (hstray _ hs) _ ht
      cases ht'
      exact ⟨hu, Tree.mem_descendants_trans ih.2 (mem_descendants_of_needs ht)⟩
  exact supplied_of_fit (fit_of_spelled hspelled husable.2 husable.1) (hstray s hs)

/-- **A file that parses without errors converts exactly if its conversion comes to no argument that
is left out, to no `import` that is not called, and to no call of `import` with nothing.** -/
theorem accepted_converts_iff (name : String) (text : Source) (hescapes : ValidEscapes text)
    (hclean : (SourceFile.parse name text).errors = []) :
    (Conversion.ofFile (SourceFile.parse name text)).isOk = true ↔
      ∀ s, Visited (SourceFile.parse name text) s → ¬ Stray s.node := by
  rw [isOk_ofFile_iff]
  constructor
  · intro h s hs hstray
    exact h s hs (none_mem_needs hstray)
  · intro hstray s hs hnone
    have hroot := Grammar.parseSource_isRoot hescapes (List.reverse_eq_nil_iff.1 hclean)
    obtain ⟨t, ht, -⟩ := supplied_of_visited hroot hstray hs none hnone
    cases ht

/-- A call with an argument that is left out. -/
def omittedArgument : Source := "f(,)".toList

/-- The parser accepts a left-out argument, and the file does not convert. -/
theorem omittedArgument_stray :
    ValidEscapes omittedArgument ∧ (SourceFile.parse "a.ts" omittedArgument).errors = [] ∧
      (Conversion.ofFile (SourceFile.parse "a.ts" omittedArgument)).isOk = false ∧
      ∃ s, Visited (SourceFile.parse "a.ts" omittedArgument) s ∧ Stray s.node := by
  have hescapes : ValidEscapes omittedArgument := .of_not_mem (by decide)
  have hclean : (SourceFile.parse "a.ts" omittedArgument).errors = [] := by decide +kernel
  have hfails : (Conversion.ofFile (SourceFile.parse "a.ts" omittedArgument)).isOk = false := by
    decide +kernel
  refine ⟨hescapes, hclean, hfails, ?_⟩
  by_contra h
  have hok := (accepted_converts_iff "a.ts" omittedArgument hescapes hclean).2 (by simpa using h)
  rw [hfails] at hok
  cases hok

end EstreeLint.Estree
