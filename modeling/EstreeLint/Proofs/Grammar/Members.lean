import EstreeLint.Grammar.Member
import EstreeLint.Proofs.Grammar.Names

/-!
What the rules for patterns, parameters, functions and members build.
-/

namespace EstreeLint.Grammar

open Parse
open Estree (Usable usable_of_form)

variable {α : Type} {text : Source} {R : Runner} {m : Mark} {ns : List Node} {K : Scanner → Prop}

section Peeks

instance (k : TokenKind) : Peeks (followedBy k) := by unfold followedBy; infer_instance

instance (k : TokenKind) : Peeks (followedOnLineBy k) := by unfold followedOnLineBy; infer_instance

instance : Peeks isModifierHere := by unfold isModifierHere; infer_instance

end Peeks

variable [Reaches text R]

/-! ### Modifiers -/

instance decorator_builds : Builds text R Anywhere decorator Usable := by
  refine ⟨fun m => ?_⟩
  exact .start (.expect_ (.sub (.withContext _ _ (reach_builds _)) fun e he => .build))

omit [Reaches text R] in
lemma ordinary_of_isModifier {k : TokenKind} (h : k.isModifier = true) : Ordinary k := by
  revert h
  cases k <;> decide

instance modifiers_builds : Builds text R Anywhere modifiers fun _ => True := by
  refine ⟨fun m => ?_⟩
  refine .look fun start => .sub (many_builds (fun _ => True) ⟨fun m => ?_⟩) fun nodes _ => ?_
  · refine .token fun k => .ite (fun _ => ?_) fun _ => .ite (fun hk => ?_) fun _ =>
      .pure rfl (by simp)
    · exact .sub decorator_builds fun n _ => .pure (by simp) (by simp)
    · refine .askIf ?_ (.pure rfl (by simp))
      have ho : Ordinary k := ordinary_of_isModifier (by simp_all)
      exact .sub (tokenNode_at k ho) fun n _ => .pure (by simp) (by simp)
  · rw [← bind_pure (listFrom? _ _)]
    exact .listFrom? fun o ho => .pure (by simpa using ho) trivial

/-! ### Patterns and parameters -/

instance objectBindingElement_builds : Builds text R Anywhere objectBindingElement Usable := by
  refine ⟨fun m => ?_⟩
  refine .start (.sub (optionalToken_builds _) fun dots _ => .look fun startsWithName => ?_)
  refine .sub propertyName_builds fun key hkey => .look fun b => .ite (fun _ => ?_) fun _ => ?_
  · exact .sub initializer_builds fun value hvalue => .build
  · refine .expect_ (.sub (reach_builds _) fun name hname => ?_)
    exact .sub initializer_builds fun value hvalue => .build

instance arrayBindingElement_builds : Builds text R Anywhere arrayBindingElement Usable := by
  refine ⟨fun m => ?_⟩
  refine .start (.askIf .omitted ?_)
  refine .sub (optionalToken_builds _) fun dots _ => .sub (reach_builds _) fun name hname => ?_
  exact .sub initializer_builds fun value hvalue => .build

instance binding_builds : Builds text R Anywhere binding Usable := by
  refine ⟨fun m => ?_⟩
  refine .start (.token fun k => ?_)
  split
  · exact .sub (enclosedList_builds arrayBindingElement_builds) fun elements h => .build
  · exact .sub (enclosedList_builds objectBindingElement_builds) fun elements h => .build
  · exact .last identifier_usable

instance parameter_builds : Builds text R Anywhere parameter Usable := by
  refine ⟨fun m => ?_⟩
  refine .start (.sub modifiers_builds fun mods _ => .sub (optionalToken_builds _) fun dots _ => ?_)
  refine .chooseIf identifierName_usable (reach_builds _) fun name hname => ?_
  refine .sub (optionalToken_builds _) fun question _ =>
    .sub declaredType_builds fun type htype => ?_
  exact .sub initializer_builds fun value hvalue => .build

instance parameters_builds :
    Builds text R Anywhere parameters fun l => ∀ n ∈ l.nodes, Usable n :=
  enclosedList_builds parameter_builds

lemma typeAfter_builds (k : TokenKind) (hk : k ≠ .endOfFile := by decide) :
    Builds text R Anywhere (typeAfter k) fun o => ∀ n ∈ o, Usable n :=
  behind_builds (reach_builds _) hk

instance typeParameter_builds : Builds text R Anywhere typeParameter Usable := by
  refine ⟨fun m => ?_⟩
  refine .start (.sub (many_builds (fun _ => True) ⟨fun m => ?_⟩) fun words _ => ?_)
  · refine .askIf (.sub (tokenNode_builds (P := (· ∈ [.constKw, .inKw, .outKw])) ?_) ?_)
      (.pure rfl (by simp))
    · decide
    · exact fun n _ => .pure (by simp) (by simp)
  · refine .listFrom? ?_
    rintro mods rfl
    refine .sub identifier_usable fun name hname => ?_
    refine .sub (typeAfter_builds _) fun constraint hconstraint => ?_
    exact .sub (typeAfter_builds _) fun default hdefault => .build

instance typeParameters_builds :
    Builds text R Anywhere typeParameters fun o => ∀ n ∈ nodesIn o, Usable n := by
  refine ⟨fun m => ?_⟩
  refine .askIf (.sub (enclosedList_builds typeParameter_builds) fun l hl => ?_)
    (.pure rfl (by simp))
  exact .pure (by simp) (by simpa using hl)

instance typeArguments_builds :
    Builds text R Anywhere typeArguments fun l => ∀ n ∈ l.nodes, Usable n :=
  enclosedList_builds (reach_builds _)

/-! ### Functions -/

/-- A block is usable, and so is each statement in it. -/
structure IsBlock (n : Node) : Prop where
  usable : Usable n
  elements : ∀ e ∈ n.partsOf .element, Usable e
  not_module : n.isForm .moduleDeclaration = false

lemma braced_builds {form : Form} (hform : form = .block ∨ form = .moduleBlock) :
    Builds text R Anywhere (braced form) IsBlock := by
  refine ⟨fun m => ?_⟩
  refine .start (.expect_ (.sub (listUntil_builds (reach?_usable _)) fun statements hs =>
    .expect_ ?_))
  refine .finish (Estree.fits_of_enough ?_) fun id stop => ⟨usable_of_form rfl ?_, ?_, ?_⟩
  · rcases hform with rfl | rfl <;> unfold Estree.enough Estree.wants <;> simp_all
  · rcases hform with rfl | rfl <;> decide
  · simpa [Node.partsOf_ofParts] using hs
  · rcases hform with rfl | rfl <;> rfl

instance block_builds : Builds text R Anywhere block IsBlock := braced_builds (.inl rfl)

instance block_usable : Builds text R Anywhere block Usable := block_builds.mono fun _ h => h.usable

instance bodyOrSemicolon_builds :
    Builds text R Anywhere bodyOrSemicolon fun o => ∀ n ∈ o, Usable n := by
  refine ⟨fun m => ?_⟩
  refine .askIf (.sub block_usable fun n hn => .pure (by simp) (by simpa using hn)) ?_
  exact .sub semicolon_builds fun _ _ => .pure (by simp) (by simp)

omit [Reaches text R] in
instance typeMemberEnd_builds : Builds text R Anywhere typeMemberEnd fun _ => True := by
  refine ⟨fun m => ?_⟩
  exact .acceptIf (.pure rfl trivial) (.last semicolon_builds)

omit [Reaches text R] in
instance thisType_builds : Builds text R (At .thisKw) thisType Usable := by
  refine ⟨fun m => ?_⟩
  exact .start (.next .build)

instance typeOrPredicate_builds : Builds text R Anywhere typeOrPredicate Usable := by
  refine ⟨fun m => ?_⟩
  refine .start (.ask fun asserting => .ite (fun ha => ?_) fun _ => .askIf ?_ ?_)
  · refine .sub (tokenNode_at .assertsKw) (fun asserts _ => ?_) (by simp_all)
    refine .chooseIf thisType_builds identifier_usable fun name hname => ?_
    exact .sub (typeAfter_builds _) fun type htype => .build
  · refine .sub identifier_usable fun name hname => .expect_ ?_
    exact .sub (reach_builds _) fun type htype => .build
  · exact .last (reach_builds _)

instance returnType_builds :
    Builds text R Anywhere returnType fun o => ∀ n ∈ o, Usable n :=
  behind_builds typeOrPredicate_builds

/-- The parts of a signature, all usable. -/
inductive IsSignature : List Part → Prop where
  | mk {typeParams : Option NodeList} {params : NodeList} {type body : Option Node}
      (htypeParams : ∀ n ∈ nodesIn typeParams, Usable n)
      (hparams : ∀ n ∈ params.nodes, Usable n) (htype : ∀ n ∈ type, Usable n)
      (hbody : ∀ n ∈ body, Usable n) :
      IsSignature [.optional .typeParameter typeParams, .many .parameter params,
        .one .declaredType type, .one .body body]

lemma signature_builds {ending : Parse (Option Node)}
    (h : Builds text R Anywhere ending fun o => ∀ n ∈ o, Usable n) :
    Builds text R Anywhere (signature ending) IsSignature := by
  refine ⟨fun m => ?_⟩
  refine .sub typeParameters_builds fun typeParams htypeParams => ?_
  refine .sub parameters_builds fun params hparams => .sub returnType_builds fun type htype => ?_
  exact .sub h fun body hbody => .pure (by simp) (.mk htypeParams hparams htype hbody)

instance typeSignature_builds : Builds text R Anywhere typeSignature IsSignature :=
  signature_builds ⟨fun m => .sub typeMemberEnd_builds fun _ _ => .pure (by simp) (by simp)⟩

/-! ### Members -/

section Peeks

instance : Peeks canFollowModifier := by unfold canFollowModifier; infer_instance

instance : Tells atAccessor fun σ => σ.kind ∈ [TokenKind.getKw, .setKw] ∧ True := by
  unfold atAccessor
  infer_instance

instance : Tells atConstructor
    fun σ => σ.kind = .constructorKw ∨ σ.kind = .stringLiteral ∧ True := by
  unfold atConstructor
  exact tells_guarded

instance : Peeks atIndexSignature := by unfold atIndexSignature; infer_instance

end Peeks

section Members

variable {mods : Option NodeList}

lemma accessor_goes {inType : Bool} (hK : ∀ σ, K σ → σ.kind ≠ .endOfFile := by simp <;> grind)
    (hn : (mods.map (·.nodes)).getD [] = ns := by simp) :
    Goes text R m ns K (accessor m.pos mods inType) nodesIn Usable := by
  subst hn
  have hparts : Builds text R Anywhere (withContext {} functionScope
      (if inType then typeSignature else signature bodyOrSemicolon)) IsSignature := by
    refine .withContext _ _ ?_
    split
    · exact typeSignature_builds
    · exact signature_builds bodyOrSemicolon_builds
  refine .look fun b => .next (.sub propertyName_builds fun name hname => .sub hparts ?_) hK
  rintro _ ⟨htypeParams, hparams, htype, hbody⟩
  cases b
  · exact .build
  · exact .build

lemma indexSignature_goes (hn : (mods.map (·.nodes)).getD [] = ns := by simp) :
    Goes text R m ns K (indexSignature m.pos mods) nodesIn Usable := by
  subst hn
  refine .sub (enclosedList_builds parameter_builds) fun params hparams => ?_
  refine .sub declaredType_builds fun type htype => .sub typeMemberEnd_builds fun _ _ => ?_
  exact .build

lemma methodRest_goes {asterisk question : Option Node} {name : Node} (hname : Usable name)
    (hn : (mods.map (·.nodes)).getD [] ++ asterisk.toList ++ [name] ++ question.toList = ns := by
      simp) :
    Goes text R m ns K (methodRest m.pos mods asterisk name question) nodesIn Usable := by
  subst hn
  refine .sub (.withContext _ _ (signature_builds bodyOrSemicolon_builds)) ?_
  rintro _ ⟨htypeParams, hparams, htype, hbody⟩
  exact .build

lemma constructor_goes (hK : ∀ σ, K σ → σ.kind ≠ .endOfFile := by simp <;> grind)
    (hn : (mods.map (·.nodes)).getD [] = ns := by simp) :
    Goes text R m ns K (constructor m.pos mods) nodesIn Usable := by
  subst hn
  refine .next (.sub (.withContext _ _ (signature_builds bodyOrSemicolon_builds)) ?_) hK
  rintro _ ⟨htypeParams, hparams, htype, hbody⟩
  exact .build

lemma propertyRest_goes {name : Node} {mark : Option Node} (hname : Usable name)
    (hn : (mods.map (·.nodes)).getD [] ++ [name] ++ mark.toList = ns := by simp) :
    Goes text R m ns K (propertyRest m.pos mods name mark) nodesIn Usable := by
  subst hn
  refine .sub declaredType_builds fun type htype => ?_
  refine .sub (.withContext _ _ initializer_builds) fun value hvalue => ?_
  exact .sub semicolon_builds fun _ _ => .build

lemma propertyOrMethod_goes (hn : (mods.map (·.nodes)).getD [] = ns := by simp) :
    Goes text R m ns K (propertyOrMethod m.pos mods) nodesIn Usable := by
  subst hn
  refine .sub (optionalToken_builds _) fun asterisk _ =>
    .sub propertyName_builds fun name hname => ?_
  refine .sub (optionalToken_builds _) fun question _ => .look fun b =>
    .ite (fun _ => ?_) fun h => ?_
  · exact methodRest_goes hname
  · obtain rfl : asterisk = none := by cases asterisk <;> simp_all
    refine .ite (fun hq => ?_) fun _ => propertyRest_goes hname
    obtain rfl : question = none := by simpa using hq
    refine .askIf (.sub (tokenNode_at .exclamation) fun mark _ => ?_) (propertyRest_goes hname)
    exact propertyRest_goes hname

lemma staticBlock_goes (hK : ∀ σ, K σ → σ.kind ≠ .endOfFile := by simp <;> grind) :
    Goes text R m [] K (staticBlock m.pos) nodesIn Usable := by
  refine .next (.sub (.withContext _ _ block_builds) fun body hbody => ?_) hK
  obtain ⟨hbody, hstatements, -⟩ := hbody
  exact .build

instance classMember_builds : Builds text R Anywhere classMember
    fun o => ∀ n ∈ o, n.isForm .semicolonClassElement = true ∨ Usable n := by
  refine ⟨fun m => ?_⟩
  refine .start (.acceptIf ?_ (.askIf ?_ (.sub modifiers_builds fun mods _ => ?_)))
  · exact .finishThen (Estree.fits_unruled (by decide)) fun id stop =>
      .pure rfl (by simp [Tree.isForm])
  · exact .bind staticBlock_goes fun n hn => .pure rfl (by simp [hn])
  refine .askIf (.bind accessor_goes fun n hn => .pure rfl (by simp [hn])) ?_
  refine .askIf (.bind constructor_goes fun n hn => .pure rfl (by simp [hn])) ?_
  refine .askIf (.bind indexSignature_goes fun n hn => .pure rfl (by simp [hn])) ?_
  refine .askIf (.bind propertyOrMethod_goes fun n hn => .pure rfl (by simp [hn])) ?_
  exact .ite (fun _ => .error) fun _ => .error

/-! ### Members of types -/

lemma propertyOrMethodSignature_goes (hn : (mods.map (·.nodes)).getD [] = ns := by simp) :
    Goes text R m ns K (propertyOrMethodSignature m.pos mods) nodesIn Usable := by
  subst hn
  refine .sub propertyName_builds fun name hname =>
    .sub (optionalToken_builds _) fun question _ => ?_
  refine .askIf (.sub typeSignature_builds ?_) (.sub declaredType_builds fun type htype => ?_)
  · rintro _ ⟨htypeParams, hparams, htype, hbody⟩
    exact .build
  · refine .askIf .error (.pureThen ?_)
    exact .sub typeMemberEnd_builds fun _ _ => .build

instance typeMember_builds : Builds text R Anywhere typeMember fun o => ∀ n ∈ o, Usable n := by
  refine ⟨fun m => ?_⟩
  refine .start (.askIf (.sub typeSignature_builds ?_) (.askIf (.next ?_) ?_))
  · rintro _ ⟨htypeParams, hparams, htype, hbody⟩
    exact .bind .build fun n hn => .pure rfl (by simpa using hn)
  · refine .sub typeSignature_builds ?_
    rintro _ ⟨htypeParams, hparams, htype, hbody⟩
    exact .bind .build fun n hn => .pure rfl (by simpa using hn)
  refine .sub modifiers_builds fun mods _ => ?_
  refine .askIf (.bind accessor_goes fun n hn => .pure rfl (by simpa using hn)) ?_
  refine .askIf (.bind indexSignature_goes fun n hn => .pure rfl (by simpa using hn)) ?_
  exact .askIf (.bind propertyOrMethodSignature_goes fun n hn => .pure rfl (by simpa using hn))
    .error

instance typeMembers_builds :
    Builds text R Anywhere typeMembers fun l => ∀ n ∈ l.nodes, Usable n := by
  refine ⟨fun m => ?_⟩
  refine .expect_ (.sub (listUntil_builds typeMember_builds) fun members h => .expect_ ?_)
  exact .pure (by simp) h

end Members

end EstreeLint.Grammar
