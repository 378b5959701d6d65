import EstreeLint.Proofs.Sites.Keeps

/-!
What the rules for names, bindings, members and types anchor.
-/

namespace EstreeLint.Grammar

open Parse
open Text (IsCut)

variable {text : Source} {clean : Prop} {R : Runner} {q : Nat}

/-! ### Names -/

instance : Sites text clean R memberName (Sited text clean) := .lookIf inferInstance inferInstance

instance (allowReserved : Bool) :
    Sites text clean R (entityName allowReserved) (Sited text clean) := by
  refine .start fun _ hq => .choose fun first hfirst => .iterate hfirst fun entity he => ?_
  refine .askIf (.sub fun right hr => .bind (.finish hq) fun n hn => ?_) (.pure (by simp))
  exact .pure (by simpa)

instance : Sites text clean R exportedName (Sited text clean) := .lookIf inferInstance inferInstance

/-- A brace that is read again as a piece of a template is a brace. -/
lemma Sites.rescanTemplate {q₁ q₂ : Parse Node} {P : Node → Prop}
    (h₁ : Sites text clean R q₁ P) (h₂ : Sites text clean R q₂ P) :
    Sites text clean R (isAt .closeBrace >>= fun b =>
      if b = true then discard (rescan Scanner.rescanTemplate) >>= fun _ => q₁ else q₂) P where
  keeps s hs hk hc := by
    have hat : (isAt .closeBrace).run R s = (s.scanner.kind == .closeBrace, s) := rfl
    rw [run_bind, hat] at hc ⊢
    dsimp only at hc ⊢
    split at hc
    · next hb =>
      rw [if_pos hb]
      exact h₁.keeps { s with scanner := s.scanner.rescanTemplate }
        (hs.rescanTemplate (by simpa using hb)) trivial hc
    · next hb =>
      rw [if_neg hb]
      exact h₂.keeps s hs trivial hc

instance : Sites text clean R templatePiece (Sited text clean) :=
  .rescanTemplate inferInstance (.of (.pass fun _ => .here fun _ hq => .empty hq))

lemma template_sites {form spanForm : Form} {substitution : Parse Node}
    (hform : form ∉ specialForms) (hspan : spanForm ∉ specialForms)
    [Sites text clean R substitution (Sited text clean)] :
    Sites text clean R (template form spanForm substitution) (Sited text clean) := by
  have span : Sites text clean R (templateSpan spanForm substitution)
      fun x => Sited text clean x.1 := by
    refine .start fun _ hq => .sub fun e he => .sub fun piece hp => ?_
    exact .bind (.finish hq (by simp [*, askingRoles]) hspan) fun n hn => .pure hn
  refine .start fun _ hq => .sub fun head hhead => .pass fun start => .sub fun first hfirst => ?_
  refine .bind (P := fun x => ∀ n ∈ x.1, Sited text clean n) (.iterate (by simpa) fun x hx => ?_)
    fun spans hspans => ?_
  · refine .ite (.sub fun next hnext => .pure ?_) (.pure (by simp))
    exact ifAny_some.2 (List.forall_mem_cons.2 ⟨hnext, hx⟩)
  · exact .listFrom (by simpa) fun l hl => .finish hq (by simp [*, askingRoles]) hform

variable [FrontGoals R] [SitesGoals text clean R]

instance : Sites text clean R propertyName (Sited text clean) := by
  refine .look fun k => ?_
  split
  · exact inferInstance
  · exact inferInstance
  · exact inferInstance
  · exact inferInstance
  · exact .start fun _ hq => .pass fun _ => .sub fun e he => .pass fun _ => .finish hq
  · exact inferInstance

omit [FrontGoals R] [SitesGoals text clean R] in
/-- A type behind a colon. -/
lemma marked_sites {p : Parse Node} [Sites text clean R p (Sited text clean)]
    [∀ here, StartsAt R here p] :
    Sites text clean R
      (accept .colon >>= fun b => if b = true then p >>= fun n => pure (some n) else pure none)
      fun o => IfAny (Sited text clean) o ∧ IfAny (Marked text clean 1) o :=
  .of (.acceptIf (.subMarked 1 fun n h hm => .pure (by simp [*])) (.pure (by simp)))

instance : Sites text clean R declaredType
    fun o => IfAny (Sited text clean) o ∧ IfAny (Marked text clean 1) o := marked_sites

instance : Sites text clean R initializer (IfAny (Sited text clean)) := by
  unfold initializer
  infer_instance

instance : Sites text clean R importAttribute (Sited text clean) :=
  .start fun _ hq => .sub fun name hn => .pass fun _ => .sub fun value hv => .finish hq


omit [FrontGoals R] in
instance (asKey : Bool) : Sites text clean R (importAttributes asKey) (Sited text clean) := by
  refine .start fun _ hq => .pass fun opening => .pass fun _ => .onlyIf ?_
  exact .enclosed fun elements hl _ => .finish hq

/-! ### Modifiers -/

instance : Sites text clean R decorator (Sited text clean) :=
  .start fun _ hq => .pass fun _ => .sub fun e he => .finish hq

instance : Sites text clean R modifiers (IfAny (SitedList text clean)) := by
  have each : Keeps text clean R (fun _ => True) modifier (IfAny (Sited text clean)) := by
    refine .pass fun k => .ite (.sub fun n hn => .pure (by simpa)) (.ite ?_ (.pure (by simp)))
    exact .askIf (.sub fun n hn => .pure (by simpa)) (.pure (by simp))
  exact .of (.pass fun start => .bind (Sites.repeated each).keeps fun nodes hn => .lastFrom? hn)

/-! ### Bindings -/

instance : Sites text clean R objectBindingElement (Sited text clean) := by
  refine .start fun _ hq => .sub fun dots hd => .pass fun startsWithName => .sub fun key hk => ?_
  refine .pass fun b => .ite (.sub fun value hv => .finish hq) (.pass fun _ => ?_)
  exact .sub fun name hn => .sub fun value hv => .finish hq

instance : Sites text clean R arrayBindingElement (Sited text clean) :=
  .start fun _ hq => .askIf (.empty hq) (.sub fun dots hd => .sub fun name hn =>
    .sub fun value hv => .finish hq)

instance : Sites text clean R binding (Sited text clean) := by
  refine .start fun _ hq => .pass fun k => ?_
  split
  · exact .enclosed fun elements hl _ => .finish hq
  · exact .enclosed fun elements hl _ => .finish hq
  · exact .last

instance : Sites text clean R parameter
    fun n => Sited text clean n ∧ n.isForm .parameter = true := by
  refine .start fun _ hq => .sub fun mods hm => .sub fun dots hd => .pass fun b => ?_
  refine .chooseBinding fun name hn hb => .sub fun question hquestion => .sub fun type ht => ?_
  exact .sub fun value hv => .ofForm (.finishNamed (by simp) hb hq)

instance : Sites text clean R parameters
    fun l => SitedList text clean l ∧ AllParameters l ∧ Delimited text clean l := by
  refine Sites.mono .enclosed fun l ⟨hl, ho⟩ => ⟨?_, fun n hn => (hl.nodes n hn).2, ho⟩
  exact ⟨fun n hn => (hl.nodes n hn).1, hl.stop⟩

instance (k : TokenKind) : Sites text clean R (typeAfter k) (IfAny (Sited text clean)) := by
  unfold typeAfter
  infer_instance

instance : Sites text clean R typeParameter (Sited text clean) := by
  have each : Keeps text clean R (fun _ => True) varianceWord (IfAny (Sited text clean)) :=
    .askIf (.sub fun n hn => .pure (by simpa)) (.pure (by simp))
  refine .start fun _ hq => .bind (Sites.repeated each).keeps fun words hw => ?_
  refine .listFrom? hw fun mods hm => .sub fun name hn => .sub fun constraint hc => ?_
  exact .sub fun default hd => .finish hq

instance : Sites text clean R typeParameters
    fun o => IfAny (SitedList text clean) o ∧ IfAny (Delimited text clean) o :=
  .of (.askIf (.enclosed fun l hl ho => .pure (by simp [*])) (.pure (by simp)))

instance : Sites text clean R typeArguments
    fun l => SitedList text clean l ∧ Delimited text clean l := Sites.enclosed

/-! ### Signatures -/

omit [FrontGoals R] in
lemma braced_sites {form : Form} (hform : form ∉ specialForms := by decide) :
    Sites text clean R (braced form) (Sited text clean) :=
  .start fun _ hq => .pass fun _ => .sub fun statements hl => .pass fun _ =>
    .finish hq (by simp [*, askingRoles]) hform

instance : Sites text clean R block (Sited text clean) := braced_sites

instance : Sites text clean R bodyOrSemicolon (IfAny (Sited text clean)) :=
  .of (.askIf (.sub fun body hb => .pure (by simpa)) (.pass fun _ => .pure (by simp)))

instance : Clearing typeMemberEnd := by unfold typeMemberEnd; infer_instance

omit [FrontGoals R] [SitesGoals text clean R] in
instance : Sites text clean R thisType (Sited text clean) :=
  .start fun _ hq => .pass fun _ => .finish hq

instance : Sites text clean R typeOrPredicate (Sited text clean) := by
  refine .start fun _ hq => .askIf ?_ (.askIf ?_ .last)
  · refine .sub fun asserts ha => .pass fun b => .choose fun name hn => ?_
    exact .sub fun type ht => .finish hq
  · exact .sub fun name hn => .pass fun _ => .sub fun type ht => .finish hq

instance : Sites text clean R returnType
    fun o => IfAny (Sited text clean) o ∧ IfAny (Marked text clean 1) o := marked_sites

/-- Parts of a function, whatever form it takes. -/
def SignatureFits (text : Source) (clean : Prop) (parts : List Part) : Prop :=
  ∀ form : Form, form ∉ [.functionType, .constructorType, .arrowFunction] →
    PartsFit text clean (.form form) parts

lemma signature_sites {ending : Parse (Option Node)}
    (h : Sites text clean R ending (IfAny (Sited text clean))) :
    Sites text clean R (signature ending) (SignatureFits text clean) := by
  refine .of (.sub fun typeParams hp => .sub fun params hparams => .sub fun type ht => ?_)
  refine .sub fun body hb => .pure fun form hform => ?_
  simp only [List.mem_cons, List.not_mem_nil, or_false, not_or] at hform
  simp [*, askingRoles]

instance (ending : Parse (Option Node)) [Sites text clean R ending (IfAny (Sited text clean))] :
    Sites text clean R (signature ending) (SignatureFits text clean) :=
  signature_sites inferInstance

instance : Sites text clean R typeSignature (SignatureFits text clean) :=
  signature_sites (.of (.pass fun _ => .pure (by simp)))

/-! ### Members -/

section Members

variable {mods : Option NodeList} (hm : IfAny (SitedList text clean) mods) (hq : IsCut text q)

include hm hq

lemma accessor_keeps {inType : Bool} :
    Keeps text clean R (fun _ => True) (accessor q mods inType) (Sited text clean) := by
  refine .pass fun b => .pass fun _ => .sub fun name hn => .bind (P := SignatureFits text clean) ?_
    fun parts hp => ?_
  · exact (Sites.inContext (.ite inferInstance inferInstance)).keeps
  · have := hp (if b = true then .getAccessor else .setAccessor) (by split <;> decide)
    exact .finish hq (by simp [*, askingRoles]) (by split <;> decide)

lemma indexSignature_keeps :
    Keeps text clean R (fun _ => True) (indexSignature q mods) (Sited text clean) := by
  refine .enclosed fun params hp ho => .sub fun type ht => .pass fun _ => .finish hq ?_
  have hlist : SitedList text clean params := ⟨fun n hn => (hp.nodes n hn).1, hp.stop⟩
  have hall : AllParameters params := fun n hn => (hp.nodes n hn).2
  simp [*, askingRoles]

lemma methodRest_keeps {asterisk question : Option Node} {name : Node}
    (ha : IfAny (Sited text clean) asterisk) (hn : Sited text clean name)
    (hquestion : IfAny (Sited text clean) question) :
    Keeps text clean R (fun _ => True) (methodRest q mods asterisk name question)
      (Sited text clean) := by
  refine .sub fun parts hp => ?_
  have := hp .methodDeclaration (by decide)
  exact .finish hq

lemma constructor_keeps :
    Keeps text clean R (fun _ => True) (constructor q mods) (Sited text clean) := by
  refine .pass fun _ => .sub fun parts hp => ?_
  have := hp .constructor (by decide)
  exact .finish hq

lemma propertyRest_keeps {name : Node} {mark : Option Node} (hn : Sited text clean name)
    (hmark : IfAny (Sited text clean) mark) :
    Keeps text clean R (fun _ => True) (propertyRest q mods name mark) (Sited text clean) :=
  .sub fun type ht => .sub fun value hv => .pass fun _ => .finish hq

lemma propertyOrMethod_keeps :
    Keeps text clean R (fun _ => True) (propertyOrMethod q mods) (Sited text clean) := by
  refine .sub fun asterisk ha => .sub fun name hn => .sub fun question hquestion => ?_
  refine .pass fun b => .ite (methodRest_keeps hm hq ha hn hquestion) ?_
  have rest := propertyRest_keeps (R := R) hm hq hn hquestion
  refine .ite (.askIf (.sub fun mark hmark => ?_) rest) rest
  exact propertyRest_keeps hm hq hn (by simpa)

lemma propertyOrMethodSignature_keeps :
    Keeps text clean R (fun _ => True) (propertyOrMethodSignature q mods) (Sited text clean) := by
  refine .sub fun name hn => .sub fun question hquestion => .askIf (.sub fun parts hp => ?_) ?_
  · have := hp .methodSignature (by decide)
    exact .finish hq
  refine .sub fun type ht => .askIf ?_ (.pureThen (.pass fun _ => .finish hq))
  exact .pass fun _ => .sub fun value hv => .pass fun _ => .finish hq

end Members

omit [FrontGoals R] in
lemma staticBlock_keeps (hq : IsCut text q) :
    Keeps text clean R (fun _ => True) (staticBlock q) (Sited text clean) :=
  .pass fun _ => .sub fun body hb => .finish hq

instance : Sites text clean R classMember (IfAny (Sited text clean)) := by
  refine .start fun _ hq => .askIf (.found (.finish hq)) (.askIf ?_ (.sub fun mods hm => ?_))
  · exact .found (staticBlock_keeps hq)
  refine .askIf (.found (accessor_keeps hm hq)) ?_
  refine .askIf (.found (constructor_keeps hm hq)) ?_
  refine .askIf (.found (indexSignature_keeps hm hq)) ?_
  refine .askIf (.found (propertyOrMethod_keeps hm hq)) (.ite ?_ ?_)
  · exact .pass fun _ => .sub fun name hn => .found (.finish hq)
  · exact .pass fun _ => .pure ifAny_none

instance : Sites text clean R typeMember (IfAny (Sited text clean)) := by
  refine .start fun _ hq => .askIf (.sub fun parts hp => ?_) (.askIf ?_ ?_)
  · have := hp .callSignature (by decide)
    exact .found (.finish hq)
  · refine .pass fun _ => .sub fun parts hp => ?_
    have := hp .constructSignature (by decide)
    exact .found (.finish hq)
  refine .sub fun mods hm => .askIf (.found (accessor_keeps hm hq)) ?_
  refine .askIf (.found (indexSignature_keeps hm hq)) ?_
  refine .askIf (.found (propertyOrMethodSignature_keeps hm hq)) ?_
  exact .pass fun _ => .pure ifAny_none

instance : Sites text clean R typeMembers
    fun l => SitedList text clean l ∧ Delimited text clean l :=
  .of (.expect_ (.opened (fun _ => rfl) fun l hl ho => .pass fun _ => .pure ⟨hl, ho⟩))

/-! ### Types -/

instance : Sites text clean R functionType (Sited text clean) := by
  refine .start fun _ hq => .sub fun words hw => ?_
  have hwords : ∀ n ∈ words.toList, Sited text clean n := by simpa [IfAny] using hw
  refine .listFrom? hwords fun mods hm => ?_
  refine .pass fun b => .sub fun typeParams htypeParams => .sub fun params hparams => ?_
  refine .expect_ (.subMarked 2 fun type ht hmark => .finish hq ?_ (by split <;> decide))
  have hwidth : markWidth (.form (if b = true then .constructorType else .functionType)) = 2 := by
    split <;> rfl
  simp [*, askingRoles]

instance : Sites text clean R typeArgumentsOnLine
    fun o => IfAny (SitedList text clean) o ∧ IfAny (Delimited text clean) o := by
  refine .of (.askIf (.pure (by simp)) (.pass fun k => .ite (.sub fun args ha => ?_) ?_))
  · exact .pure (by simp [*])
  · exact .pure (by simp)

instance : Sites text clean R typeReference (Sited text clean) :=
  .start fun _ hq => .sub fun name hn => .sub fun args ha => .finish hq

instance : Sites text clean R typeQuery (Sited text clean) :=
  .start fun _ hq => .pass fun _ => .sub fun name hn => .sub fun args ha => .finish hq

instance : Sites text clean R importTypeAttributes (IfAny (Sited text clean)) := by
  refine .of (.askIf (.pass fun b => .ite ?_ ?_) (.pure ifAny_none))
  · exact .sub fun attributes ha => .pass fun _ => .pass fun _ => .pass fun _ => .pure ha
  · exact .pass fun _ => .pureThen (.pass fun _ => .pass fun _ => .pass fun _ => .pure ifAny_none)

instance : Sites text clean R importType (Sited text clean) := by
  refine .start fun _ hq => .pass fun isTypeOf => .pass fun _ => .pass fun _ => ?_
  refine .sub fun argument ha => .sub fun attributes hattributes => .pass fun _ => .pass fun b => ?_
  exact .perhaps fun qualifier hqualifier => .sub fun args hargs => .finish hq

omit [FrontGoals R] [SitesGoals text clean R] in
instance : Sites text clean R signedLiteral (Sited text clean) := by
  refine .look fun k => ?_
  split
  · exact .start fun _ hq => .pass fun _ => .sub fun operand ho => .finish hq
  all_goals exact inferInstance

omit [FrontGoals R] [SitesGoals text clean R] in
instance : Sites text clean R literalType (Sited text clean) :=
  .start fun _ hq => .sub fun value hv => .finish hq

instance : Sites text clean R tupleElementType (Sited text clean) := by
  refine .start fun _ hq => .askIf (.sub fun inner hi => .finish hq) (.sub fun inner hi => ?_)
  exact .askIf (.finish hq) (.pure hi)

instance : Sites text clean R tupleElement (Sited text clean) := by
  refine .start fun _ hq => .askIf (.sub fun dots hd => .sub fun name hn => ?_) .last
  exact .sub fun question hquestion => .pass fun _ => .sub fun type ht => .finish hq

instance : Sites text clean R tupleType (Sited text clean) :=
  .start fun _ hq => .enclosed fun elements hl _ => .finish hq

omit [FrontGoals R] [SitesGoals text clean R] in
instance (k : TokenKind) : Sites text clean R (signedMark k) (IfAny (Sited text clean)) := by
  refine .of (.askIf (.found .last) (.askIf (.sub fun sign hs => ?_) (.pure ifAny_none)))
  exact .pass fun _ => .pure (ifAny_some.2 hs)

instance : Sites text clean R strayMember (Sited text clean) := by
  refine .of (.pass fun _ => .here fun _ hq => ?_)
  exact .sub fun name hn => .sub fun type ht => .pass fun _ => .finish hq

instance : Sites text clean R mappedParameter (Sited text clean) :=
  .start fun _ hq => .sub fun name hn => .pass fun _ => .sub fun constraint hc => .finish hq

instance : Sites text clean R mappedType (Sited text clean) := by
  refine .start fun _ hq => .pass fun _ => .sub fun readonlyMark hr => .pass fun _ => ?_
  refine .sub fun param hp => .sub fun nameType hn => .pass fun _ => ?_
  refine .sub fun question hquestion => ?_
  refine .sub fun type ht => .pass fun _ => .sub fun stray hs => .pass fun _ => .finish hq ?_
  cases h : stray.nodes <;> simp [*, askingRoles]

instance : Sites text clean R parenthesizedType (Sited text clean) :=
  .start fun _ hq => .pass fun _ => .sub fun inner hi => .pass fun _ => .finish hq

instance : Sites text clean R typeLiteral (Sited text clean) :=
  .start fun _ hq => .sub fun members hl => .finish hq

instance : Sites text clean R thisTypeOrPredicate (Sited text clean) := by
  refine .start fun _ hq => .sub fun this ht => .askIf ?_ (.pure ht)
  exact .pass fun _ => .sub fun type htype => .finish hq

instance : Sites text clean R basicType (Sited text clean) := by
  refine .look fun k => ?_
  have template : Sites text clean R
      (template .templateLiteralType .templateLiteralTypeSpan (reach .type)) (Sited text clean) :=
    template_sites (by decide) (by decide)
  split
  all_goals first
    | exact inferInstance
    | exact .lookIf inferInstance inferInstance
    | exact .look fun _ => .ite inferInstance inferInstance
    | exact .ite inferInstance (.of (.pass fun _ => .last))

instance : Sites text clean R bracketedType (Sited text clean) := by
  refine .start fun _ hq => .sub fun type ht => .iterate ht fun type ht => ?_
  refine .askIf (.pure ifAny_none) (.askIf (.askIf (.found (.finish hq)) ?_) (.pure ifAny_none))
  exact .sub fun index hi => .pass fun _ => .found (.finish hq)

instance : Sites text clean R inferredParameter (Sited text clean) := by
  have constraint : Sites text clean R
      (attempt do
        if ← accept .extendsKw then
          let constraint ← withContext { noConditionalType := true } {} (reach .type)
          if ← inContext (·.noConditionalType) <||> return !(← isAt .question) then
            return some constraint
        return none)
      (IfAny (Sited text clean)) := by
    refine .tried (.of (.askIf (.sub fun constraint hc => ?_) (.pure ifAny_none)))
    exact .askIf (.pure (ifAny_some.2 hc)) (.pure ifAny_none)
  exact .start fun _ hq => .sub fun name hn => .sub fun constraint hc => .finish hq

instance : Sites text clean R typeOperator (Sited text clean) := by
  refine .start fun _ hq => .pass fun k => ?_
  split
  · exact .pass fun operator => .pass fun _ => .sub fun type ht => .finish hq
  · exact .pass fun operator => .pass fun _ => .sub fun type ht => .finish hq
  · exact .pass fun operator => .pass fun _ => .sub fun type ht => .finish hq
  · exact .pass fun _ => .sub fun param hp => .finish hq
  · exact .last

lemma typeList_sites {operator : TokenKind} {form : Form} {constituent : Parse Node}
    [h : Sites text clean R constituent (Sited text clean)]
    (hform : form ∉ specialForms := by decide) :
    Sites text clean R (typeList operator form constituent) (Sited text clean) := by
  have operand : Sites text clean R (typeOperand constituent) (Sited text clean) :=
    .lookIf inferInstance inferInstance
  refine .start fun _ hq => .pass fun leading => .choose fun first hfirst => .pass fun b => ?_
  refine .ite (.pure hfirst) (.bind (Sites.repeated (behind_sites operator operand).keeps).keeps
    fun rest hrest => ?_)
  exact .listFrom (List.forall_mem_cons.2 ⟨hfirst, hrest⟩) fun l hl =>
    .finish hq (by simp [*, askingRoles]) hform

instance : Sites text clean R intersectionType (Sited text clean) := typeList_sites

instance : Sites text clean R unionType (Sited text clean) := typeList_sites

instance : Sites text clean R anyType (Sited text clean) := by
  refine .of (.askIf .last (.here fun _ hq => .sub fun checked hc => .askIf ?_ (.pure hc)))
  refine .sub fun bound hb => .pass fun _ => .sub fun whenTrue ht => .pass fun _ => ?_
  exact .sub fun whenFalse hf => .finish hq

instance : Sites text clean R type (Sited text clean) := .nest inferInstance inferInstance

instance : Sites text clean R typeArgumentsInExpression
    fun o => IfAny (SitedList text clean) o ∧ IfAny (Delimited text clean) o := by
  have list : Sites text clean R
      (attempt do
        if (← rescan Scanner.rescanLess) != .lessThan then return none
        next
        let before ← errorCount
        let list ← commaList .greaterThan (reach .type)
        if (← errorCount) != before then return none
        if (← rescan Scanner.rescanGreater) != .greaterThan then return none
        next
        if ← canFollowTypeArguments then return some list else return none)
      (IfAny fun l => SitedList text clean l ∧ Delimited text clean l) := by
    refine .tried (.of (.rescanned fun k => ?_))
    by_cases hk : k = .lessThan
    · subst hk
      refine .taken (.look fun before => .opened (fun _ => rfl) fun l hl ho => .pass fun n => ?_)
      refine .ite (.pure ifAny_none) (.pass fun k => .ite (.pure ifAny_none) (.pass fun _ => ?_))
      exact .askIf (.pure (ifAny_some.2 ⟨hl, ho⟩)) (.pure ifAny_none)
    · have hk : (k != .lessThan) = true := by simpa using hk
      rw [if_pos hk]
      exact .pure ifAny_none
  refine .lookIf ?_ (.pure (by simp))
  exact list.mono fun o ho => ifAny_and.1 ho

end EstreeLint.Grammar
