import EstreeLint.Grammar.Expression
import EstreeLint.Proofs.Grammar.Types

/-!
What the rules for expressions build, up to calls.
-/

namespace EstreeLint.Grammar

open Parse
open Estree (Usable IsOperator Applied usable_of_token usable_of_form)

variable {text : Source} {R : Runner} {m : Mark} {ns : List Node} {K : Scanner → Prop}

section Peeks

instance : Tells atTemplate
    fun σ => σ.kind ∈ [TokenKind.noSubstitutionTemplateLiteral, .templateHead] := by
  unfold atTemplate
  infer_instance

instance : Tells atOptionalMember fun σ => σ.kind = .questionDot ∧ True := by
  unfold atOptionalMember
  infer_instance

end Peeks

variable [Reaches text R]

instance expression_builds : Builds text R Anywhere expression Usable := by
  refine .withContext _ _ ⟨fun m => .start (.sub (reach_builds _) fun first hfirst => ?_)⟩
  refine iterate_goes _ Usable hfirst fun left hleft => .askIf ?_ (.pure (by simp) (by simp))
  refine .sub (tokenNode_at .comma) fun operator hop => .sub (reach_builds _) fun right hright => ?_
  refine .bind (.buildAs (Estree.fits_operands hleft ⟨_, hop, by decide⟩ hright)) fun n hn => ?_
  exact .pure rfl (by simpa using hn)

instance fullExpression_builds : Builds text R Anywhere fullExpression Usable :=
  .withContext _ _ expression_builds

/-! ### Lists -/

instance listElement_builds : Builds text R Anywhere listElement Usable := by
  refine ⟨fun m => ?_⟩
  refine .start (.token fun k => ?_)
  split
  · exact .next (.sub (reach_builds _) fun e he => .build)
  · exact .omitted
  · exact .last (reach_builds _)

instance argumentList_builds :
    Builds text R Anywhere argumentList fun l => ∀ n ∈ l.nodes, Usable n :=
  enclosedList_builds (.withContext _ _ listElement_builds)

instance arrayLiteral_builds : Builds text R Anywhere arrayLiteral Usable := by
  refine ⟨fun m => ?_⟩
  refine .start (.sub (enclosedList_builds (.withContext _ _ listElement_builds)) fun l hl => ?_)
  exact .build

instance objectElement_builds : Builds text R Anywhere objectElement Usable := by
  refine ⟨fun m => ?_⟩
  refine .start (.acceptIf (.sub (reach_builds _) fun e he => .build) ?_)
  refine .sub modifiers_builds fun mods _ => .askIf accessor_goes ?_
  refine .sub (optionalToken_builds _) fun asterisk _ => .look fun startsWithName => ?_
  refine .sub propertyName_builds fun name hname =>
    .sub (optionalToken_builds _) fun question _ => ?_
  refine .look fun b => .ite (fun _ => methodRest_goes hname) fun _ => .look fun b => ?_
  -- what stands before the name belongs to no node
  refine .forget [name] (.ite (fun _ => ?_) fun _ => .expect_ ?_)
  · exact .sub initializer_builds fun value hvalue => .build
  · exact .sub (reach_builds _) fun value hvalue => .build

instance objectLiteral_builds : Builds text R Anywhere objectLiteral Usable := by
  refine ⟨fun m => ?_⟩
  refine .start (.sub (enclosedList_builds (.withContext _ _ objectElement_builds)) fun l hl => ?_)
  exact .build

/-! ### Primary expressions -/

instance parenthesized_builds : Builds text R Anywhere parenthesized Usable := by
  refine ⟨fun m => ?_⟩
  exact .start (.expect_ (.sub fullExpression_builds fun e he => .expect_ .build))

omit [Reaches text R] in
instance asyncModifier_builds : Builds text R Anywhere asyncModifier fun _ => True := by
  refine ⟨fun m => ?_⟩
  refine .look fun start => .sub (optionalToken_builds .asyncKw) fun word _ => ?_
  rw [← bind_pure (listFrom? _ _)]
  exact .listFrom? fun o ho => .pure (by simpa using ho) trivial

instance functionExpression_builds : Builds text R Anywhere functionExpression Usable := by
  refine ⟨fun m => ?_⟩
  refine .start (.sub asyncModifier_builds fun mods _ => .expect_ ?_)
  refine .sub (optionalToken_builds _) fun asterisk _ => ?_
  refine .having (fun x => (∀ n ∈ x.1, Usable n) ∧ IsSignature x.2)
    (.withContext _ _ ⟨fun m => ?_⟩) ?_
  · refine .askSome identifier_usable fun name hname => ?_
    exact .sub (signature_builds block_usable.opt) fun parts hparts =>
      .pure (by simp) ⟨hname, hparts⟩
  · rintro ⟨name, parts⟩ ⟨hname, hparts⟩
    obtain ⟨htypeParams, hparams, htype, hbody⟩ := hparts
    exact .build

instance templateExpression_builds : Builds text R (At .templateHead) templateExpression Usable :=
  template_builds (.inl rfl) (by decide) fullExpression_builds

instance anyTemplate_builds :
    Builds text R (fun σ => σ.kind ∈ [TokenKind.noSubstitutionTemplateLiteral, .templateHead])
      anyTemplate Usable := by
  refine ⟨fun m => ?_⟩
  refine .isAt (.last (literal_usable [.noSubstitutionTemplateLiteral])) ?_
  exact .last templateExpression_builds (fun _ h => h) (by simp; grind)

/-! ### Members -/

section Members

variable {e : Node} {questionDot : Option Node}

lemma taggedTemplate_goes {tag : Node} {args : Option NodeList} (htag : Usable tag)
    (hargs : ∀ n ∈ nodesIn args, Usable n)
    (hK : ∀ σ, K σ → σ.kind ∈ [TokenKind.noSubstitutionTemplateLiteral, .templateHead] := by
      intros; simp_all)
    (hn : tag :: (args.map (·.nodes)).getD [] = ns := by simp) :
    Goes text R m ns K (taggedTemplate m.pos tag questionDot args) nodesIn Usable := by
  subst hn
  exact .sub anyTemplate_builds (fun piece hpiece => .build) hK

omit [Reaches text R] in
lemma propertyAccess_goes (he : Usable e) (hn : e :: questionDot.toList = ns := by simp) :
    Goes text R m ns K (propertyAccess m.pos e questionDot) nodesIn Usable := by
  subst hn
  exact .sub memberName_builds fun name hname => .build

lemma elementAccess_goes (he : Usable e) (hn : e :: questionDot.toList = ns := by simp) :
    Goes text R m ns K (elementAccess m.pos e questionDot) nodesIn Usable := by
  subst hn
  refine .askIf .error (.sub fullExpression_builds fun argument hargument => .expect_ .build)

/-- A link that is made of an expression, or nothing. -/
abbrev IsLink (text : Source) (R : Runner) (m : Mark) (ns : List Node) (K : Scanner → Prop)
    (e : Node) (p : Parse (Option Node)) : Prop :=
  Goes text R m ns K p (fun o => [o.getD e]) fun o => ∀ n ∈ o, Usable n

lemma optionalLink_goes {dot : Node} (he : Usable e) :
    IsLink text R m [e, dot] K e (optionalLink m.pos e dot) := by
  refine .askIf (.bind (propertyAccess_goes he) fun n hn => .pure rfl (by simpa using hn)) ?_
  refine .acceptIf (.bind (elementAccess_goes he) fun n hn => .pure rfl (by simpa using hn)) ?_
  refine .forget [e] (.askIf ?_ (.pure rfl (by simp)))
  exact .bind (taggedTemplate_goes he (by simp)) fun n hn => .pure rfl (by simpa using hn)

omit [Reaches text R] in
/-- An expression before type arguments is a node with both. -/
lemma withArguments_goes {args : NodeList} (he : Usable e) (hargs : ∀ n ∈ args.nodes, Usable n) :
    Goes text R m (e :: args.nodes) K
      (finish .expressionWithTypeArguments m.pos [.one .typeName e, .many .typeArgument args])
      nodesIn Usable := by
  have hfits : Estree.Fits .expressionWithTypeArguments
      [.one .typeName e, .optional .typeArgument (some args)] {} :=
    Estree.fits_applied he (by simpa using hargs)
  refine .finish hfits fun id stop => ⟨rfl, fun h => by simp [Tree.isForm] at h, fun _ => ?_⟩
  refine ⟨e.withRole .typeName, args.nodes.map (·.withRole .typeArgument), args.span, ?_, ?_⟩
  · simp [Node.ofParts, Part.nodes]
  · exact ⟨by simp, by simp, rfl⟩

lemma trailingLink_goes (he : Usable e) : IsLink text R m [e] K e (trailingLink m.pos e) := by
  refine .askIf (.split [] [] he (fun hsplit => ?_) ?_) ?_
  · rw [hsplit]
    exact .bind (taggedTemplate_goes he (by simp)) fun n hn => .pure rfl (by simpa using hn)
  · intro name args hsplit hname hargs
    rw [hsplit]
    refine .bind (taggedTemplate_goes hname (by simpa using hargs)) fun n hn => ?_
    exact .pure rfl (by simpa using hn)
  · refine .sub typeArgumentsInExpression_builds fun o ho => ?_
    cases o with
    | none => exact .pure (by simp) (by simp)
    | some args =>
      exact .bind (withArguments_goes he (ho args rfl)) fun n hn => .pure rfl (by simpa using hn)

lemma plainLink_goes (he : Usable e) : IsLink text R m [e] K e (plainLink m.pos e) := by
  refine .acceptIf (.bind (propertyAccess_goes he) fun n hn => .pure rfl (by simpa using hn)) ?_
  refine .askIf (.next (.bind .build fun n hn => .pure rfl (by simpa using hn))) ?_
  refine .look fun b => .ite (fun _ => .acceptIf ?_ (trailingLink_goes he)) fun _ =>
    trailingLink_goes he
  exact .bind (elementAccess_goes he) fun n hn => .pure rfl (by simpa using hn)

lemma memberLink_goes {allowOptional : Bool} (he : Usable e) :
    IsLink text R m [e] K e (memberLink m.pos allowOptional e) := by
  refine .ask fun b => .ite (fun hb => ?_) fun _ => ?_
  · refine .sub (tokenNode_at .questionDot) (fun dot _ => optionalLink_goes he) ?_
    intro σ hσ
    exact (hσ.2 (by simp_all)).1
  · exact plainLink_goes he

lemma memberLinks_goes {allowOptional : Bool} (he : Usable e) :
    Goes text R m [e] K (memberLinks m.pos allowOptional e) nodesIn Usable :=
  iterate_goes _ Usable he fun _ he => memberLink_goes he

end Members

instance newCallee_builds : Builds text R Anywhere newCallee Usable := by
  refine ⟨fun m => ?_⟩
  exact .start (.sub (reach_builds _) fun e he => memberLinks_goes he)

instance newExpression_builds : Builds text R Anywhere newExpression Usable := by
  refine ⟨fun m => ?_⟩
  have hword : TokenKind.newKw.text?.isSome = true := by decide
  refine .start (.expect_ (.acceptIf (.sub identifierName_usable fun name hname => .build) ?_))
  refine .sub newCallee_builds fun callee hcallee => .split [] [] hcallee (fun hsplit => ?_) ?_
  · rw [hsplit]
    refine .askIf .error (.askSome argumentList_builds fun args hargs => ?_)
    have hall : ∀ n ∈ nodesIn args, Usable n := by cases args <;> simp_all
    exact .build
  · intro name typeArgs hsplit hname htypeArgs
    rw [hsplit]
    refine .askIf .error (.askSome argumentList_builds fun args hargs => ?_)
    have hall : ∀ n ∈ nodesIn args, Usable n := by cases args <;> simp_all
    exact .build

instance decoratedClass_builds : Builds text R Anywhere decoratedClass Usable := by
  refine ⟨fun m => ?_⟩
  exact .start (.sub modifiers_builds fun mods _ => .askIf (classLike_goes (.inr rfl)) .error)

instance primary_builds : Builds text R Anywhere primary Usable := by
  refine ⟨fun m => ?_⟩
  refine .token fun k => ?_
  split
  iterate 4
    exact .last (literal_usable [.numericLiteral, .bigIntLiteral, .stringLiteral,
      .noSubstitutionTemplateLiteral])
  iterate 5
    exact .last (tokenNode_usable [.thisKw, .superKw, .nullKw, .trueKw, .falseKw])
  · exact .last parenthesized_builds
  · exact .last arrayLiteral_builds
  · exact .last objectLiteral_builds
  · exact .last functionExpression_builds
  · exact .askIf (.last functionExpression_builds) (.last identifier_usable)
  · exact .start (classLike_goes (.inr rfl))
  · exact .last decoratedClass_builds
  · exact .last newExpression_builds
  iterate 2
    refine .rescanAs (fun σ => σ.fullStart = m.pos ∧ σ.kind = .regularExpressionLiteral)
      (f := fun _ => literal) (fun σ hs hk => ⟨hs.rescanSlash, σ.rescan_fullStart.2.2.1, ?_⟩)
      fun _ => ?_
    · rw [σ.rescan_fullStart.2.2.1]
      exact ⟨hk.1.2, by simp [Scanner.rescanSlash, hk.2]⟩
    · exact .last (literal_usable [.regularExpressionLiteral])
  · exact .last templateExpression_builds
  · exact .last privateIdentifier_usable
  · exact .askIf (.last identifier_usable) .error

/-! ### Calls -/

omit [Reaches text R] in
instance superExpression_builds : Builds text R (At .superKw) superExpression Usable := by
  refine ⟨fun m => ?_⟩
  refine .start (.sub (tokenNode_usable [.superKw]) fun e he => .askIf ?_ .error)
  exact .pure (by simp) he

section Calls

variable {e : Node}

lemma callRest_goes {callee : Node} {questionDot : Option Node} {typeArgs : Option NodeList}
    (hcallee : Usable callee) (htypeArgs : ∀ n ∈ nodesIn typeArgs, Usable n)
    (hn : callee :: (questionDot.toList ++ (typeArgs.map (·.nodes)).getD []) = ns := by simp) :
    Goes text R m ns K (callRest m.pos callee questionDot typeArgs) nodesIn Usable := by
  subst hn
  exact .sub argumentList_builds fun args hargs => .build

/-- An expression that a call has been made of, or not. -/
abbrev IsCall (text : Source) (R : Runner) (m : Mark) (ns : List Node) (K : Scanner → Prop)
    (p : Parse (Node × Bool)) : Prop :=
  Goes text R m ns K p (fun x => [x.1]) fun x => Usable x.1

lemma optionalCall_goes {dot : Node} (he : Usable e) :
    IsCall text R m [e, dot] K (optionalCall m.pos e dot) := by
  refine .sub typeArgumentsInExpression_builds (fun typeArgs h => ?_) (fun _ _ => trivial)
  have htypeArgs : ∀ n ∈ nodesIn typeArgs, Usable n := by cases typeArgs <;> simp_all
  refine .askIf ?_ (.look fun b => .ite (fun _ => ?_) fun _ => .error)
  · refine .forget (e :: nodesIn typeArgs) (.bind (taggedTemplate_goes he htypeArgs) fun n hn => ?_)
    exact .pure rfl hn
  · exact .bind (callRest_goes he htypeArgs) fun n hn => .pure rfl hn

lemma callLink_goes (he : Usable e) : IsCall text R m [e] K (callLink m.pos e) := by
  refine .askIf ?_ (.askIf (.split [] [] he (fun hsplit => ?_) ?_) (.pure rfl he))
  · exact .sub (tokenNode_at .questionDot) fun dot _ => optionalCall_goes he
  · rw [hsplit]
    exact .bind (callRest_goes he (by simp)) fun n hn => .pure rfl hn
  · intro name args hsplit hname hargs
    rw [hsplit]
    exact .bind (callRest_goes hname (by simpa using hargs)) fun n hn => .pure rfl hn

lemma callLinks_goes (he : Usable e) :
    Goes text R m [e] K (callLinks m.pos e) nodesIn Usable := by
  refine .bind (iterate_goes (fun x => [x.1]) (fun x => Usable x.1) he fun x hx => ?_) ?_
  · refine .ite (fun _ => ?_) fun _ => .pure rfl (by simp)
    refine .bind (memberLinks_goes hx) fun e he => .bind (callLink_goes he) fun y hy => ?_
    exact .pure rfl (by simpa using hy)
  · exact fun x hx => .pure rfl hx

end Calls

instance leftHandSide_builds : Builds text R Anywhere leftHandSide Usable := by
  have hword : TokenKind.importKw.text?.isSome = true := by decide
  have hmember {m : Mark} : Goes text R m [] (fun σ => σ.fullStart = m.pos)
      (primary >>= memberLinks m.pos true) nodesIn Usable :=
    .sub primary_builds fun e he => memberLinks_goes he
  refine ⟨fun m => ?_⟩
  refine .start (.token fun k => ?_)
  split
  · refine .peek fun k => ?_
    split
    · exact .sub (tokenNode_usable [.importKw]) fun e he => callLinks_goes he
    · exact .sub (tokenNode_usable [.importKw]) fun e he => callLinks_goes he
    · refine .next (.expect_ (.sub identifierName_usable fun name hname => ?_))
      exact .bind .build fun e he => callLinks_goes he
    · exact .bind (hmember.mono (by simp_all) fun _ h => h) fun e he => callLinks_goes he
  · exact .sub superExpression_builds fun e he => callLinks_goes he
  · exact .bind (hmember.mono (by simp_all) fun _ h => h) fun e he => callLinks_goes he

end EstreeLint.Grammar
