import EstreeLint.Proofs.Grammar.Types
import EstreeLint.Proofs.Layout.Lays

/-!
What the rules for names, bindings, members and types lay out.
-/

namespace EstreeLint.Grammar

open Parse

variable {R : Runner} {m : Place} {ns : List Node}

/-! ### Names -/

instance : Lays R memberName := .lookIf inferInstance inferInstance

instance (allowReserved : Bool) : Lays R (entityName allowReserved) := by
  refine .start fun _ => .choose fun first => .iterate (fun entity => [entity]) fun entity => ?_
  exact .askIf (.sub fun right => .bind .finish fun n => .pure) .pure

instance : Lays R exportedName := .lookIf inferInstance inferInstance

/-- A brace that is read again as a piece of a template is a brace. -/
lemma Lays.rescanTemplate {q₁ q₂ : Parse Node} (h₁ : Lays R q₁) (h₂ : Lays R q₂) :
    Lays R (isAt .closeBrace >>= fun b =>
      if b = true then discard (rescan Scanner.rescanTemplate) >>= fun _ => q₁ else q₂) where
  lays s hs := by
    have hat : (isAt .closeBrace).run R s = (s.scanner.kind == .closeBrace, s) := rfl
    rw [run_bind, hat]
    dsimp only
    split
    · next hk =>
      exact h₁.lays { s with scanner := s.scanner.rescanTemplate }
        (hs.rescanTemplate (by simpa using hk))
    · exact h₂.lays s hs

instance : Lays R templatePiece := by
  refine .rescanTemplate inferInstance (.of fun _ => .pass fun _ => ?_)
  exact .lastPart (.start fun _ => .empty)

lemma template_lays {form spanForm : Form} (hform : form ≠ .expressionWithTypeArguments)
    (hspan : spanForm ≠ .expressionWithTypeArguments) {substitution : Parse Node}
    [Lays R substitution] : Lays R (template form spanForm substitution) := by
  have span : Lays R (templateSpan spanForm substitution) := by
    refine .start fun _ => .sub fun e => .sub fun piece => .bind (.finish hspan) fun n => ?_
    exact .pure
  refine .start fun _ => .sub fun head => .pass fun start => .sub fun first => ?_
  refine .bind (.iterate (fun x => head :: x.1.reverse) fun x => ?_) fun spans => ?_
  · exact .ite (.sub fun next => .pure) .pure
  · exact .listFrom fun _ => .finish hform

variable [LaysGoals R]

instance : Lays R propertyName := by
  refine .look fun k => ?_
  split
  · exact inferInstance
  · exact inferInstance
  · exact inferInstance
  · exact inferInstance
  · exact .start fun _ => .pass fun _ => .sub fun e => .pass fun _ => .finish
  · exact inferInstance

instance : Lays R declaredType := by unfold declaredType; infer_instance

instance : Lays R initializer := by unfold initializer; infer_instance

instance : Lays R importAttribute :=
  .start fun _ => .sub fun name => .pass fun _ => .sub fun value => .finish

instance (asKey : Bool) : Lays R (importAttributes asKey) :=
  .start fun _ => .pass fun opening => .pass fun _ => .onlyIf (.sub fun elements => .finish)

/-! ### Modifiers -/

instance : Lays R decorator := .start fun _ => .pass fun _ => .sub fun e => .finish

instance : Lays R modifiers := by
  refine .of fun _ => .pass fun start => .part (.repeated ?_) fun nodes => ?_
  · refine .of fun _ => .pass fun k => .ite (.sub fun n => .pure) (.ite ?_ .pure)
    exact .askIf (.sub fun n => .pure) .pure
  · simpa using Steps.lastFrom?

/-! ### Bindings -/

instance : Lays R objectBindingElement := by
  refine .start fun _ => .sub fun dots => .pass fun startsWithName => .sub fun key => ?_
  refine .pass fun b => .ite (.sub fun value => .finish) (.pass fun _ => ?_)
  exact .sub fun name => .sub fun value => .finish

instance : Lays R arrayBindingElement :=
  .start fun _ => .askIf .empty (.sub fun dots => .sub fun name => .sub fun value => .finish)

instance : Lays R binding := by
  refine .start fun _ => .pass fun k => ?_
  split
  · exact .sub fun elements => .finish
  · exact .sub fun elements => .finish
  · exact .last

instance : Lays R parameter := by
  refine .start fun _ => .sub fun mods => .sub fun dots => .pass fun b => .choose fun name => ?_
  exact .sub fun question => .sub fun type => .sub fun value => .finish

instance : Lays R parameters := inferInstanceAs (Lays R (enclosedList ..))

instance (k : TokenKind) : Lays R (typeAfter k) := by unfold typeAfter; infer_instance

instance : Lays R typeParameter := by
  refine .start fun _ => .part (.repeated (.of fun _ => ?_)) fun words => ?_
  · exact .askIf (.sub fun n => .pure) .pure
  · refine .listFrom? fun mods hmods => .sub fun name => .sub fun constraint => ?_
    exact .sub fun default => .finish (by decide) (by simp_all)

instance : Lays R typeParameters := .of fun _ => .askIf (.sub fun l => .pure) .pure

instance : Lays R typeArguments := inferInstanceAs (Lays R (enclosedList ..))

/-! ### Signatures -/

lemma braced_lays {form : Form} (hform : form ≠ .expressionWithTypeArguments := by decide) :
    Lays R (braced form) :=
  .start fun _ => .pass fun _ => .sub fun statements => .pass fun _ => .finish hform

instance : Lays R block := braced_lays

instance : Lays R bodyOrSemicolon :=
  .of fun _ => .askIf (.sub fun body => .pure) (.pass fun _ => .pure)

instance : Passes typeMemberEnd := by unfold typeMemberEnd; infer_instance

omit [LaysGoals R] in
instance : Lays R thisType := .start fun _ => .pass fun _ => .finish

instance : Lays R typeOrPredicate := by
  refine .start fun _ => .askIf ?_ (.askIf ?_ .last)
  · exact .sub fun asserts => .pass fun b => .choose fun name => .sub fun type => .finish
  · exact .sub fun name => .pass fun _ => .sub fun type => .finish

instance : Lays R returnType := by unfold returnType; infer_instance

lemma signature_lays {ending : Parse (Option Node)} (h : Lays R ending) :
    Lays R (signature ending) := by
  refine .of fun _ => .sub fun typeParams => .sub fun params => .sub fun type => ?_
  exact .part h fun body => .pure

instance (ending : Parse (Option Node)) [Lays R ending] : Lays R (signature ending) :=
  signature_lays inferInstance

instance : Lays R typeSignature := signature_lays (.of fun _ => .pass fun _ => .pure)

/-! ### Members -/

lemma accessor_steps {mods : Option NodeList} {inType : Bool} :
    Steps R m (nodesIn mods) (accessor m.pos mods inType) nodesIn := by
  refine .pass fun b => .pass fun _ => .sub fun name => ?_
  refine .part (.inContext (.ite inferInstance inferInstance)) fun parts => ?_
  exact .finish (by split <;> decide)

lemma indexSignature_steps {mods : Option NodeList} :
    Steps R m (nodesIn mods) (indexSignature m.pos mods) nodesIn :=
  .sub fun params => .sub fun type => .pass fun _ => .finish

lemma methodRest_steps {mods : Option NodeList} {asterisk question : Option Node} {name : Node}
    (hn : nodesIn mods ++ asterisk.toList ++ [name] ++ question.toList = ns := by simp) :
    Steps R m ns (methodRest m.pos mods asterisk name question) nodesIn := by
  subst hn
  exact .sub fun parts => .finish

lemma constructor_steps {mods : Option NodeList} :
    Steps R m (nodesIn mods) (constructor m.pos mods) nodesIn :=
  .pass fun _ => .sub fun parts => .finish

lemma propertyRest_steps {mods : Option NodeList} {name : Node} {mark : Option Node}
    (hn : nodesIn mods ++ [name] ++ mark.toList = ns := by simp) :
    Steps R m ns (propertyRest m.pos mods name mark) nodesIn := by
  subst hn
  exact .sub fun type => .sub fun value => .pass fun _ => .finish

lemma propertyOrMethod_steps {mods : Option NodeList} :
    Steps R m (nodesIn mods) (propertyOrMethod m.pos mods) nodesIn := by
  refine .sub fun asterisk => .sub fun name => .sub fun question => .pass fun b => ?_
  refine .ite methodRest_steps ?_
  -- an asterisk without parameters belongs to no node
  refine .forget (nodesIn mods ++ [name] ++ nodesIn question) ?_
  refine .ite (.askIf (.forget (nodesIn mods ++ [name]) ?_) propertyRest_steps) propertyRest_steps
  exact .sub fun mark => propertyRest_steps

lemma staticBlock_steps : Steps R m [] (staticBlock m.pos) nodesIn :=
  .pass fun _ => .sub fun body => .finish

instance : Lays R classMember := by
  refine .start fun _ => .askIf (.bind .finish fun n => .pure) (.askIf ?_ (.sub fun mods => ?_))
  · exact .bind staticBlock_steps fun n => .pure
  refine .askIf (.bind accessor_steps fun n => .pure) ?_
  refine .askIf (.bind constructor_steps fun n => .pure) ?_
  refine .askIf (.bind indexSignature_steps fun n => .pure) ?_
  refine .askIf (.bind propertyOrMethod_steps fun n => .pure) (.ite ?_ ?_)
  · exact .pass fun _ => .sub fun name => .bind .finish fun n => .pure
  · exact .pass fun _ => .forget [] .pure

/-! ### Members of types -/

lemma propertyOrMethodSignature_steps {mods : Option NodeList} :
    Steps R m (nodesIn mods) (propertyOrMethodSignature m.pos mods) nodesIn := by
  refine .sub fun name => .sub fun question => .askIf (.sub fun parts => .finish) ?_
  refine .sub fun type => .askIf ?_ (.pureThen (.pass fun _ => .finish))
  exact .pass fun _ => .sub fun value => .pass fun _ => .finish

instance : Lays R typeMember := by
  refine .start fun _ => .askIf (.sub fun parts => .bind .finish fun n => .pure) (.askIf ?_ ?_)
  · exact .pass fun _ => .sub fun parts => .bind .finish fun n => .pure
  refine .sub fun mods => .askIf (.bind accessor_steps fun n => .pure) ?_
  refine .askIf (.bind indexSignature_steps fun n => .pure) ?_
  refine .askIf (.bind propertyOrMethodSignature_steps fun n => .pure) ?_
  exact .pass fun _ => .forget [] .pure

instance : Lays R typeMembers :=
  .of fun _ => .pass fun _ => .sub fun members => .pass fun _ => .pure

/-! ### Types -/

instance : Lays R functionType := by
  refine .start fun _ => .sub fun words => .listFrom? fun mods hmods => .pass fun b => ?_
  refine .sub fun typeParams => .sub fun params => .pass fun _ => .sub fun type => ?_
  exact .finish (by split <;> decide) (by simp_all)

instance : Lays R typeArgumentsOnLine :=
  .of fun _ => .askIf .pure (.pass fun k => .ite (.sub fun args => .pure) .pure)

instance : Lays R typeReference := .start fun _ => .sub fun name => .sub fun args => .finish

instance : Lays R typeQuery :=
  .start fun _ => .pass fun _ => .sub fun name => .sub fun args => .finish

instance : Lays R importTypeAttributes := by
  refine .of fun _ => .askIf (.pass fun b => .ite ?_ ?_) .pure
  · exact .sub fun attributes => .pass fun _ => .pass fun _ => .pass fun _ => .pure
  · exact .pass fun _ => .pureThen (.pass fun _ => .pass fun _ => .pass fun _ => .pure)

instance : Lays R importType := by
  refine .start fun _ => .pass fun isTypeOf => .pass fun _ => .pass fun _ => .sub fun argument => ?_
  refine .sub fun attributes => .pass fun _ => .pass fun b => .perhaps fun qualifier => ?_
  exact .sub fun args => .finish

omit [LaysGoals R] in
instance : Lays R signedLiteral := by
  refine .look fun k => ?_
  split
  · exact .start fun _ => .pass fun _ => .sub fun operand => .finish
  all_goals exact inferInstance

omit [LaysGoals R] in
instance : Lays R literalType := .start fun _ => .sub fun value => .finish

instance : Lays R tupleElementType := by
  refine .start fun _ => .askIf (.sub fun inner => .finish) (.sub fun inner => ?_)
  exact .askIf .finish .pure

instance : Lays R tupleElement := by
  refine .start fun _ => .askIf (.sub fun dots => .sub fun name => .sub fun question => ?_) .last
  exact .pass fun _ => .sub fun type => .finish

instance : Lays R tupleType := .start fun _ => .sub fun elements => .finish

omit [LaysGoals R] in
instance (k : TokenKind) : Lays R (signedMark k) := by
  refine .of fun _ => .askIf (.sub fun n => .pure) (.askIf (.sub fun sign => ?_) .pure)
  exact .pass fun _ => .pure

instance : Lays R strayMember := by
  refine .of fun _ => .pass fun _ => .lastPart (.start fun _ => ?_)
  exact .sub fun name => .sub fun type => .pass fun _ => .finish

instance : Lays R mappedParameter :=
  .start fun _ => .sub fun name => .pass fun _ => .sub fun constraint => .finish

instance : Lays R mappedType := by
  refine .start fun _ => .pass fun _ => .sub fun readonlyMark => .pass fun _ => .sub fun param => ?_
  refine .sub fun nameType => .pass fun _ => .sub fun question => .sub fun type => .pass fun _ => ?_
  refine .sub fun stray => .pass fun _ => .finish (by decide) ?_
  cases h : stray.nodes <;> simp [h]

instance : Lays R parenthesizedType :=
  .start fun _ => .pass fun _ => .sub fun inner => .pass fun _ => .finish

instance : Lays R typeLiteral := .start fun _ => .sub fun members => .finish

instance : Lays R thisTypeOrPredicate := by
  refine .start fun _ => .sub fun this => .askIf (.pass fun _ => .sub fun type => .finish) .pure

instance : Lays R basicType := by
  refine .look fun k => ?_
  have template : Lays R (template .templateLiteralType .templateLiteralTypeSpan (reach .type)) :=
    template_lays (by decide) (by decide)
  split
  all_goals first
    | exact inferInstance
    | exact .lookIf inferInstance inferInstance
    | exact .look fun _ => .ite inferInstance inferInstance
    | exact .ite inferInstance (.of fun _ => .pass fun _ => .last)

instance : Lays R bracketedType := by
  refine .start fun _ => .sub fun type => .iterate (fun type => [type]) fun type => ?_
  refine .askIf .pure (.askIf (.askIf (.bind .finish fun n => .pure) ?_) .pure)
  exact .sub fun index => .pass fun _ => .bind .finish fun n => .pure

instance : Lays R inferredParameter := by
  refine .start fun _ => .sub fun name => .part (.tried (.of fun _ => ?_)) fun constraint => .finish
  exact .askIf (.sub fun constraint => .askIf .pure (.forget [] .pure)) .pure

instance : Lays R typeOperator := by
  refine .start fun _ => .pass fun k => ?_
  split
  · exact .pass fun operator => .pass fun _ => .sub fun type => .finish
  · exact .pass fun operator => .pass fun _ => .sub fun type => .finish
  · exact .pass fun operator => .pass fun _ => .sub fun type => .finish
  · exact .pass fun _ => .sub fun param => .finish
  · exact .last

lemma typeList_lays {operator : TokenKind} {form : Form} {constituent : Parse Node}
    [Lays R constituent] (hform : form ≠ .expressionWithTypeArguments := by decide) :
    Lays R (typeList operator form constituent) := by
  have operand : Lays R (typeOperand constituent) := .lookIf inferInstance inferInstance
  refine .start fun _ => .pass fun leading => .choose fun first => .pass fun b => .ite .pure ?_
  exact .part (.repeated inferInstance) fun rest => .listFrom fun _ => .finish hform

instance : Lays R intersectionType := typeList_lays

instance : Lays R unionType := typeList_lays

instance : Lays R anyType := by
  refine .of fun _ => .askIf .last (.lastPart (.start fun _ => ?_))
  refine .sub fun checked => .askIf (.sub fun bound => .pass fun _ => ?_) .pure
  exact .sub fun whenTrue => .pass fun _ => .sub fun whenFalse => .finish

instance : Lays R type := .nest inferInstance inferInstance

instance : Lays R typeArgumentsInExpression := by
  refine .lookIf (.tried (.of fun _ => ?_)) .pure
  refine .pass fun k => .ite .pure (.pass fun _ => .pass fun before => .sub fun list => ?_)
  refine .pass fun count => .ite (.forget [] .pure) (.pass fun k => .ite (.forget [] .pure) ?_)
  exact .pass fun _ => .askIf .pure (.forget [] .pure)

end EstreeLint.Grammar
