import EstreeLint.Grammar.Operation
import EstreeLint.Proofs.Grammar.Expressions

/-!
What the rules for operators, arrow functions and assignments build.
-/

namespace EstreeLint.Grammar

open Parse
open Estree (Usable IsOperator Supplies isRuled)

variable {α : Type} {text : Source} {R : Runner} {m : Mark} {ns : List Node} {K : Scanner → Prop}

section Peeks

instance : Peeks operandFollowsOnLine := by unfold operandFollowsOnLine; infer_instance

instance : Tells atAwait fun σ => σ.kind = .awaitKw ∧ (True ∨ True) := by
  unfold atAwait
  infer_instance

instance : Tells atYield fun σ => σ.kind = .yieldKw ∧ (True ∨ True) := by
  unfold atYield
  infer_instance

instance : Peeks atElement := by unfold atElement; infer_instance

instance : Peeks arrowGuess := by unfold arrowGuess; infer_instance

end Peeks

variable [Reaches text R]

/-! ### Unary and binary operators -/

instance updateExpression_builds : Builds text R Anywhere updateExpression Usable := by
  have hword : ∀ k, k = TokenKind.plusPlus ∨ k = .minusMinus → k.text?.isSome = true := by
    rintro _ (rfl | rfl) <;> decide
  refine ⟨fun m => ?_⟩
  refine .start (.token fun operator => .ite (fun h => ?_) fun _ =>
    .askIf (.last (reach_builds _)) ?_)
  · have hoperator := hword operator (by simpa using h)
    exact .next (.sub (reach_builds _) fun operand hoperand => .build)
  · refine .sub leftHandSide_builds fun operand hoperand => .askIf ?_ (.pure (by simp) hoperand)
    refine .token fun operator => .know (Q := operator.text?.isSome = true) ?_ fun hoperator => ?_
    · exact fun σ h => hword operator (by simp at h; grind)
    · exact .next .build

lemma applied_builds {form : Form} {parts : List Part} {r : Role}
    (hw : ∀ e, Usable e → ∀ w ∈ Estree.enough form, Supplies (parts ++ [.one r (some e)]) w)
    (hparts : parts.flatMap Part.bare = [] := by rfl)
    (hr : isRuled (.form form) = true ∧ form ≠ .importClause ∧
      form ≠ .expressionWithTypeArguments := by decide) :
    Builds text R (fun σ => σ.kind ≠ .endOfFile) (applied form parts r) Usable := by
  refine ⟨fun m => ?_⟩
  refine .start (.next (.sub (reach_builds _) fun e he => ?_))
  exact .build (hw e he) hr (by simp [hparts])

instance typeAssertion_builds : Builds text R (At .lessThan) typeAssertion Usable := by
  refine ⟨fun m => ?_⟩
  refine .start (.next (.sub (reach_builds _) fun type htype => .expect_ ?_))
  exact .sub (reach_builds _) fun e he => .build

instance simpleUnary_builds : Builds text R Anywhere simpleUnary Usable := by
  have hword : ∀ k ∈ [TokenKind.plus, .minus, .tilde, .exclamation], k.text?.isSome = true := by
    decide
  refine ⟨fun m => ?_⟩
  refine .token fun operator => ?_
  split
  iterate 4
    refine .last (applied_builds fun e he => ?_)
    unfold Estree.enough Estree.wants
    simp_all
  iterate 3
    refine .last (applied_builds fun e he => ?_)
    unfold Estree.enough Estree.wants
    simpa using he
  · exact .askIf (.last updateExpression_builds) (.last typeAssertion_builds)
  · refine .askIf (.last (applied_builds fun e he => ?_)) (.last updateExpression_builds)
    unfold Estree.enough Estree.wants
    simpa using he
  · exact .last updateExpression_builds

omit [Reaches text R] in
lemma isOperator_of_binaryPrecedence {k : TokenKind} (h : binaryPrecedence k ≠ 0) :
    Ordinary k ∧ (k == .comma || k.text?.isSome) = true := by
  revert h
  cases k <;> decide

omit [Reaches text R] in
lemma isOperator_of_isAssignment {k : TokenKind} (h : k.isAssignment = true) :
    Ordinary k ∧ (k == .comma || k.text?.isSome) = true := by
  revert h
  cases k <;> decide

lemma operatorLink_goes {above : Nat} {left : Node} (hleft : Usable left) :
    IsLink text R m [left] K left (operatorLink above m.pos left) := by
  refine .rereadThere rereads_greater fun operator => ?_
  refine .ite (fun _ => .pure rfl (by simp)) fun htakes => .look fun noIn => ?_
  refine .ite (fun _ => .pure rfl (by simp)) fun _ => .ite (fun has => ?_) fun _ => ?_
  · refine .askIf (.pure rfl (by simp)) (.next (.sub (reach_builds _) fun type htype => ?_))
    dsimp only
    split
    · exact .bind .build fun n hn => .pure rfl (by simpa using hn)
    · exact .bind .build fun n hn => .pure rfl (by simpa using hn)
  · obtain ⟨ho, htext⟩ := isOperator_of_binaryPrecedence (k := operator) (by
      simp [takesOperator] at htakes
      exact htakes.1)
    refine .sub (tokenNode_at operator ho) fun mark hmark => ?_
    refine .sub (reach_builds _) fun right hright => ?_
    refine .bind (.buildAs (Estree.fits_operands hleft ⟨_, hmark, htext⟩ hright)) fun n hn => ?_
    exact .pure rfl (by simpa using hn)

instance binary_builds (above : Nat) : Builds text R Anywhere (binary above) Usable := by
  refine ⟨fun m => ?_⟩
  refine .start (.sub simpleUnary_builds fun first hfirst => ?_)
  exact iterate_goes _ Usable hfirst fun left hleft => operatorLink_goes hleft

/-! ### Arrow functions -/

instance arrowBody_builds (async returnType : Bool) :
    Builds text R Anywhere (arrowBody async returnType) Usable := by
  refine ⟨fun m => ?_⟩
  refine .askIf (.last (.withContext _ _ block_usable)) ?_
  exact .last (.withContext _ _ (reach_builds _))

instance parenthesizedArrow_builds (sure returnTypeAllowed : Bool) :
    Builds text R Anywhere (parenthesizedArrow sure returnTypeAllowed)
      fun o => ∀ n ∈ o, Usable n := by
  refine ⟨fun m => ?_⟩
  refine .start (.sub asyncModifier_builds fun mods _ => .look fun before => ?_)
  refine .having (fun x => (∀ n ∈ nodesIn x.1, Usable n) ∧ ∀ n ∈ nodesIn x.2, Usable n)
    (.withContext _ _ ⟨fun m => ?_⟩) ?_
  · refine .sub typeParameters_builds fun typeParams htypeParams => ?_
    refine .askSome parameters_builds fun params hparams => .pure (by simp) ⟨htypeParams, ?_⟩
    cases params <;> simp_all
  · rintro ⟨typeParams, _ | params⟩ ⟨htypeParams, hparams⟩
    · exact .drop (by simp) (by simp)
    refine .look fun b => .ite (fun _ => .drop (by simp) (by simp)) fun _ =>
      .look fun hasColon => ?_
    refine .sub returnType_builds fun type htype => ?_
    refine .look fun b => .ite (fun _ => .drop (by simp) (by simp)) fun _ => .look fun last => ?_
    refine .ite (fun _ => .drop (by simp) (by simp)) fun _ => ?_
    refine .sub (optionalToken_builds _) fun arrow _ => .onlyIf (fun _ => expecting_builds _) ?_
    refine .choose (fun _ => (arrowBody_builds _ _).mono fun _ h => h)
      (fun _ => identifier_usable.mono fun _ h => h) fun body hbody => ?_
    refine .look fun b => .ite (fun _ => .drop (by simp) (by simp)) fun _ => ?_
    exact .bind .build fun n hn => .pure rfl (by simpa using hn)

instance parenthesizedArrow?_builds (returnTypeAllowed : Bool) :
    Builds text R Anywhere (parenthesizedArrow? returnTypeAllowed) fun o => ∀ n ∈ o, Usable n := by
  refine ⟨fun m => ?_⟩
  refine .look fun guess => ?_
  split
  · exact .pure rfl (by simp)
  · exact .last (attempt_builds (parenthesizedArrow_builds _ _))
  · exact .last (unlessRuledOut_builds (parenthesizedArrow_builds _ _))

/-! #### Where a run comes to -/

section Leads

variable {K' Q : Scanner → Prop}

/-- A run without errors from where `K` holds comes to where `K'` does. -/
def Leads (R : Runner) (K : Scanner → Prop) (p : Parse α) (K' : Scanner → Prop) : Prop :=
  ∀ s, K s.scanner → (p.run R s).2.errors = [] → K' (p.run R s).2.scanner

omit [Reaches text R] in
/-- A rule inside another, where something is known of the token behind it. -/
lemma Goes.subTo [HasNodes α] {β : Type} {p : Parse α} {f : α → Parse β} {ok : α → Prop}
    {out : β → List Node} {val : β → Prop} (hp : Builds text R Anywhere p ok)
    (hl : Leads R K p K') (hf : ∀ a, ok a → Goes text R m (ns ++ nodesIn a) K' (f a) out val) :
    Goes text R m ns K (p >>= f) out val := by
  intro he s hs hk hc
  have hclean := clean_of_clean hc
  obtain ⟨h, ha⟩ := hp.goes s.mark he s (.refl hs.sound) ⟨trivial, rfl⟩ hclean
  exact hf _ ha he _ (hs.trans h) (hl s hk hclean) hc

omit [Reaches text R] in
lemma Leads.withContext {p : Parse α} (add drop : Context) (h : Leads R K p K') :
    Leads R K (Parse.withContext add drop p) K' := fun _ hk hc => h _ hk hc

omit [Reaches text R] in
lemma asyncModifier_leads : Leads R (fun σ => σ.kind = .asyncKw ∧ Q σ.scan) asyncModifier Q := by
  intro s hk _
  have hword : ((optionalToken .asyncKw).run R s).2.scanner = s.scanner.scan := by
    have hb : (s.scanner.kind == .asyncKw) = true := by simpa using hk.1
    change ((if (s.scanner.kind == .asyncKw) = true then _ else _ : Parse _).run R s).2.scanner = _
    rw [if_pos hb]
    rfl
  change Q ((listFrom? _ _).run R ((optionalToken .asyncKw).run R s).2).2.scanner
  rw [Peeks.scanner_run, hword]
  exact hk.2

omit [Reaches text R] in
lemma identifier_leads : Leads R (fun σ => Q σ.scan) identifier Q := by
  intro s hk hc
  unfold identifier at hc ⊢
  rw [run_bind] at hc ⊢
  split at hc
  · next h =>
    rw [if_pos h]
    change Q ((atIdentifier.run R s).2.scanner.scan)
    rw [Peeks.scanner_run]
    exact hk
  · rw [run_bind] at hc
    split at hc
    · exact absurd (clean_of_clean hc) (Goes.errors_error_ne_nil _)
    · exact absurd (clean_of_clean hc) (Goes.errors_error_ne_nil _)

omit [Reaches text R] in
instance : Tells atAsyncArrow
    fun σ => σ.kind = .asyncKw ∧ σ.scan.scan.kind = .equalsGreaterThan := by
  have hlook : Tells (lookAhead do
      next
      if ← sameLine <&&> atIdentifier then
        next
        sameLine <&&> isAt .equalsGreaterThan
      else return false) fun σ => σ.scan.scan.kind = .equalsGreaterThan :=
    { leaves := Peeks.leaves
      tells := fun R s h => by
        have hnext : (next.run R s).2.scanner = s.scanner.scan := rfl
        change ((next >>= fun _ => _).run R s).1 = true at h
        rw [run_bind, run_bind] at h
        split at h
        · rw [run_bind] at h
          have harrow := (Tells.tells R _ h).2
          change (Scanner.scan _).kind = _ at harrow
          rwa [Peeks.scanner_run, hnext] at harrow
        · cases h }
  unfold atAsyncArrow
  infer_instance

end Leads

omit [Reaches text R] in
/-- A name stands for the parameter that it names. -/
lemma Goes.wrap {β : Type} {name : Node} {f : Node → Parse β} {out : β → List Node} {val : β → Prop}
    (hname : Usable name)
    (hf : ∀ param, Usable param → Goes text R m (ns ++ [param]) K (f param) out val) :
    Goes text R m (ns ++ [name]) K
      (node (.form .parameter) name.pos name.stop [.one .name name] >>= f) out val := by
  intro he s hs hk hc
  obtain ⟨ts, hts, hsp⟩ := hs.spelled
  have hfits : Estree.Fits .parameter [.one .name name] {} := Estree.fits_of_enough (by
    unfold Estree.enough
    simpa using hname)
  have hwrap := hsp.wrap (.ofParts s.arena.size (.form .parameter) name.pos name.stop {}
    [.one .name name]) rfl rfl rfl (by simp [Node.ofParts, Part.nodes]) (hfits _ _ _)
  refine hf _ (Estree.usable_of_form rfl (by decide)) he _ ⟨hs.sound, ts, hts, hwrap⟩ hk hc

lemma simpleArrow_goes {name : Node} {mods : Option NodeList} {returnType : Bool}
    (hname : Usable name) (hK : ∀ σ, K σ → σ.kind = .equalsGreaterThan := by intros; simp_all)
    (hn : (mods.map (·.nodes)).getD [] ++ [name] = ns := by simp) :
    Goes text R m ns K (simpleArrow m.pos name mods returnType) nodesIn Usable := by
  subst hn
  refine .wrap hname fun param hparam => ?_
  refine .sub (tokenNode_at .equalsGreaterThan) (fun arrow _ => ?_) hK
  exact .sub (arrowBody_builds _ _) fun body hbody => .build

instance asyncArrow?_builds (returnType : Bool) :
    Builds text R Anywhere (asyncArrow? returnType) fun o => ∀ n ∈ o, Usable n := by
  refine ⟨fun m => ?_⟩
  refine .askIf (.start ?_) (.pure rfl (by simp))
  have hmods : Leads R (fun σ => σ.kind = .asyncKw ∧ σ.scan.scan.kind = .equalsGreaterThan)
      asyncModifier fun σ => σ.scan.kind = .equalsGreaterThan :=
    asyncModifier_leads (Q := fun σ => σ.scan.kind = .equalsGreaterThan)
  have hname : Leads R (fun σ => σ.scan.kind = .equalsGreaterThan)
      (withContext { awaiting := true } {} identifier) (At .equalsGreaterThan) :=
    (identifier_leads (Q := At .equalsGreaterThan)).withContext _ _
  refine Goes.mono (.subTo asyncModifier_builds hmods fun mods _ => ?_)
    (fun _ h => h.2) fun _ h => h
  refine .subTo (.withContext _ _ identifier_usable) hname fun name hname => ?_
  exact .bind (simpleArrow_goes hname) fun n hn => .pure rfl (by simpa using hn)

/-! ### Assignments -/

instance yieldExpression_builds : Builds text R (At .yieldKw) yieldExpression Usable := by
  refine ⟨fun m => ?_⟩
  refine .start (.next (.askIf ?_ .build))
  refine .sub (optionalToken_builds _) fun asterisk _ => ?_
  exact .sub (reach_builds _) fun e he => .build

lemma conditionalRest_goes {condition : Node} {returnType : Bool} (hcondition : Usable condition) :
    Goes text R m [condition] K (conditionalRest m.pos condition returnType) nodesIn Usable := by
  refine .acceptIf ?_ (.pure rfl hcondition)
  refine .sub (.withContext _ _ (reach_builds _)) fun whenTrue htrue => .expect ?_
  exact .sub (reach_builds _) fun whenFalse hfalse => .build

instance assignmentRest_builds (returnType : Bool) :
    Builds text R Anywhere (assignmentRest returnType) Usable := by
  refine ⟨fun m => ?_⟩
  refine .start (.sub (binary_builds 0) fun left hleft => .ask fun b =>
    .ite (fun h => ?_) fun _ => ?_)
  · exact simpleArrow_goes hleft
  · refine .ite (fun _ => ?_) fun _ => conditionalRest_goes hleft
    refine .rereadThere rereads_greater fun k => .ite (fun hk => ?_) fun _ =>
      conditionalRest_goes hleft
    obtain ⟨ho, htext⟩ := isOperator_of_isAssignment hk
    refine .sub (tokenNode_at k ho) fun operator hop => .sub (reach_builds _) fun right hright => ?_
    exact .buildAs (Estree.fits_operands hleft ⟨_, hop, htext⟩ hright)

instance assignment_builds (returnType : Bool) :
    Builds text R Anywhere (assignment returnType) Usable := by
  refine .nested ⟨fun m => .askIf (.last yieldExpression_builds) ?_⟩
  refine .sub (parenthesizedArrow?_builds _) fun arrow harrow => ?_
  cases arrow with
  | some n => exact .pure (by simp) (harrow n rfl)
  | none =>
    refine .sub (asyncArrow?_builds _) fun arrow harrow => ?_
    cases arrow with
    | some n => exact .pure (by simp) (harrow n rfl)
    | none => exact .tail (assignmentRest_builds _)

end EstreeLint.Grammar
