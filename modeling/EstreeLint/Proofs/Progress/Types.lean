import EstreeLint.Proofs.Grammar.Types
import EstreeLint.Proofs.Progress.Loops

/-!
The rules for names, bindings, members and types go forward.
-/

namespace EstreeLint.Grammar

open Parse

variable {α β : Type} {ρ : Nat} {K : Scanner → Prop}

set_option synthInstance.maxSize 20000

/-! ### Names -/

instance : Proceeds ρ propertyName where
  starts := .token fun k => by
    split
    · exact .named
    · exact .named
    · exact .named
    · exact .named
    · exact .look fun start => .take .opened
    · exact .named

instance : Proceeds ρ memberName := by unfold memberName; infer_instance

lemma dottedName_starts (start : Nat) (entity : Node) :
    Starts ρ K (dottedName start entity) fun o _ => o = none := .acceptIf .pure

instance (start : Nat) (entity : Node) : Proceeds ρ (iterate (dottedName start) entity) :=
  .iterate (dottedName_starts start) entity

instance (allowReserved : Bool) : Proceeds ρ (entityName allowReserved) := by
  unfold entityName
  infer_instance

instance : Proceeds ρ exportedName := by unfold exportedName; infer_instance

instance : Proceeds ρ declaredType := ⟨(behind_starts (K := Anywhere) .colon (reach .type)).mono⟩

instance : Proceeds ρ initializer :=
  ⟨(behind_starts (K := Anywhere) .equals (reach (.assignment true))).mono⟩

/-! ### Templates -/

/-- A node is of the kind that it is made with. -/
lemma node_starts {kind : NodeKind} {start stop : Nat} {parts : List Part} {flags : NodeFlags} :
    Starts ρ K (node kind start stop parts flags) fun n σ => n.kind = kind ∧ K σ :=
  fun _ _ _ _ _ _ hs hk => ⟨⟨rfl, hs.sound, Nat.le_refl _⟩, fun ht => .inr ⟨rfl, hk ht⟩⟩

lemma finish_starts {form : Form} {start : Nat} {parts : List Part} {flags : NodeFlags} :
    Starts ρ K (finish form start parts flags) fun n _ => n.kind = .form form :=
  .sub fun _ => (node_starts (K := Anywhere)).mono

/-- A closing brace that is read again as a piece of a template. -/
lemma Starts.rescanTemplate {q₁ q₂ : Parse β} {out : β → Scanner → Prop}
    (h₁ : Starts ρ (fun σ => σ.kind = .templateMiddle ∨ σ.kind = .templateTail) q₁ out)
    (h₂ : Starts ρ Anywhere q₂ out) :
    Starts ρ K (Parse.isAt .closeBrace >>= fun b =>
      if b = true then discard (rescan Scanner.rescanTemplate) >>= fun _ => q₁ else q₂) out := by
  intro text R R' s m taken hs _
  have hat (R : Runner) (s : State) :
      (Parse.isAt .closeBrace).run R s = (s.scanner.kind == .closeBrace, s) := rfl
  by_cases hk : s.scanner.kind = .closeBrace
  · have hrun (R : Runner) (n : Nat) : (Parse.isAt .closeBrace >>= fun b =>
        if b = true then discard (rescan Scanner.rescanTemplate) >>= fun _ => q₁ else q₂).run R
          { s with limit := n } =
        q₁.run R { s with scanner := s.scanner.rescanTemplate, limit := n } := by
      rw [run_bind, hat, hk]
      rfl
    obtain ⟨hsound, hkind⟩ := hs.sound.rescanTemplate hk
    exact of_run (h₁ (s := { s with scanner := s.scanner.rescanTemplate }) taken
      ⟨hs.escapes, hsound, hs.limit, hs.limit', hs.agree⟩ fun _ => hkind) (hrun R _) (hrun R' m) rfl
  · have hrun (R : Runner) (n : Nat) : (Parse.isAt .closeBrace >>= fun b =>
        if b = true then discard (rescan Scanner.rescanTemplate) >>= fun _ => q₁ else q₂).run R
          { s with limit := n } = q₂.run R { s with limit := n } := by
      rw [run_bind, hat, beq_false_of_ne hk]
      rfl
    exact of_run (h₂ taken hs fun _ => trivial) (hrun R _) (hrun R' m) rfl

lemma templatePiece_starts :
    Starts ρ Anywhere templatePiece fun n _ => n.isToken .templateMiddle = false := by
  refine .rescanTemplate .opened (.sub fun _ => .sub fun here => node_starts.mono (fun _ h => h) ?_)
  intro n σ h
  simp [Tree.isToken, h]

instance : Proceeds ρ templatePiece := ⟨templatePiece_starts.mono⟩

section Template

variable {form spanForm : Form} {substitution : Parse Node} [Proceeds 4 substitution]

/-- Another substitution follows only behind a piece that has been taken. -/
lemma templateSpan_starts :
    Starts 4 Anywhere (templateSpan form substitution) fun x _ => x.2 = false :=
  .look fun _ => .sub fun _ => .bind templatePiece_starts fun _ =>
    .fact fun h => .sub fun _ => .pure

instance : Proceeds 4 (templateSpan form substitution) := ⟨templateSpan_starts.mono⟩

lemma forward_nextSpan : (Loop.iterate (nextSpan form substitution)).Forward 4 := by
  refine ⟨fun x _ => x.2 = false, fun x => ?_, fun x R s h => ?_⟩
  · refine .ite (.bind templateSpan_starts fun y => .pure ?_) (.pure ?_) <;> simp [Loop.iterate]
  · obtain ⟨spans, more⟩ := x
    obtain rfl : more = false := h
    rfl

instance : Opened HasToken (template form spanForm substitution) := by
  have (x : List Node × Bool) : Proceeds 4 (iterate (nextSpan spanForm substitution) x) :=
    iterate_eq (nextSpan spanForm substitution) x ▸ forward_nextSpan.proceeds x
  unfold template
  infer_instance

end Template

instance : Proceeds 4 importAttribute := by unfold importAttribute; infer_instance

instance (asKey : Bool) : Proceeds 4 (importAttributes asKey) := by
  unfold importAttributes
  dsimp only
  infer_instance

/-! ### Modifiers -/

instance (k : TokenKind) : Proceeds ρ (followedBy k) := by unfold followedBy; infer_instance

instance (k : TokenKind) : Proceeds ρ (followedOnLineBy k) := by
  unfold followedOnLineBy
  infer_instance

instance : Proceeds ρ canFollowModifier := by unfold canFollowModifier; infer_instance

instance : Proceeds ρ canFollowExport := by unfold canFollowExport; infer_instance

instance : Proceeds ρ canFollowDefault where
  starts := .token fun k => by split <;> exact .named

instance : Proceeds ρ isModifierHere :=
  .ahead <| .token fun k => by
    split
    · exact .named
    · exact .sub fun k => by split <;> exact .named
    · exact .named
    · exact .named
    · exact .named

instance : Opened (Begins .at) decorator := by
  unfold decorator
  infer_instance

lemma modifier_starts : Starts ρ K modifier fun o _ => o = none := by
  refine .token fun k => .iteOf (fun h => .take (.opened ?_)) fun _ =>
    .iteOf (fun h => ?_) fun _ => .pure
  · simp_all
  · refine .askIf (.take (.opened ?_)) .pure
    rintro σ ⟨⟨-, rfl⟩, -⟩ he
    simp [he, TokenKind.isModifier, TokenKind.modifiers] at h

instance : Proceeds ρ (many modifier) := .many modifier_starts

instance : Proceeds ρ modifiers := by unfold modifiers; infer_instance

/-! ### Bindings -/

instance : Proceeds 4 objectBindingElement := by unfold objectBindingElement; infer_instance

instance : Proceeds 4 arrayBindingElement := by unfold arrayBindingElement; infer_instance

instance : Proceeds ρ binding where
  starts := .look fun start => .token fun k => by
    split
    · exact .take .opened
    · exact .take .opened
    · exact .named

instance : Proceeds 4 parameter := by unfold parameter; dsimp only; infer_instance

instance : Opened (Begins .openParen) parameters :=
  inferInstanceAs (Opened _ (enclosedList ..))

instance (k : TokenKind) : Proceeds 4 (typeAfter k) := by unfold typeAfter; infer_instance

lemma varianceWord_starts : Starts ρ K varianceWord fun o _ => o = none := by
  refine .askIf (.take (.opened fun σ h => ?_)) .pure
  grind

instance : Proceeds ρ (many varianceWord) := .many varianceWord_starts

instance : Proceeds 4 typeParameter := by unfold typeParameter; infer_instance

lemma typeParameters_starts :
    Starts ρ K typeParameters fun _ σ => K σ ∧ σ.kind ≠ .lessThan := .isAt (.take .opened) .pure

instance : Proceeds ρ typeParameters := ⟨(typeParameters_starts (K := Anywhere)).mono⟩

instance : Opened (Begins .lessThan) typeArguments :=
  inferInstanceAs (Opened _ (enclosedList ..))

/-! ### Signatures -/

instance (form : Form) : Proceeds (ρ + 3) (braced form) := by unfold braced; infer_instance

instance (form : Form) : Opened (Begins .openBrace) (braced form) := by
  unfold braced
  infer_instance

instance : Opened (Begins .openBrace) block :=
  inferInstanceAs (Opened _ (braced _))

instance : Proceeds ρ bodyOrSemicolon where
  starts := .isAt (.take .opened) .named

instance : Proceeds ρ typeMemberEnd := by unfold typeMemberEnd; infer_instance

instance : Opened HasToken thisType := by unfold thisType; infer_instance

instance : Proceeds 4 typeOrPredicate := by unfold typeOrPredicate; dsimp only; infer_instance

instance : Proceeds ρ returnType :=
  ⟨(behind_starts (K := Anywhere) .colon typeOrPredicate).mono⟩

instance (ending : Parse (Option Node)) [Proceeds 4 ending] : Proceeds 4 (signature ending) := by
  unfold signature
  infer_instance

instance : Proceeds 4 typeSignature := inferInstanceAs (Proceeds 4 (signature _))

/-! ### Members -/

instance : Proceeds ρ atAccessor := by unfold atAccessor; infer_instance

instance : Proceeds ρ atConstructor := by unfold atConstructor; infer_instance

instance : Proceeds ρ atIndexSignature := by
  refine .and inferInstance (.ahead (.sub fun inside => .ite .named ?_))
  have hlast : Starts ρ Anywhere (Parse.token >>= fun
      | .colon | .comma => return true
      | .question => do
        next
        atAny [.colon, .comma, .closeBracket]
      | _ => return false) fun _ _ => True := .token fun k => by split <;> exact .named
  refine .ite (.sub fun _ => .sub fun b => .ite .named hlast) (.sub fun b => .ite ?_ .named)
  exact .sub fun _ => hlast

instance (start : Nat) (mods : Option NodeList) (inType : Bool) :
    Proceeds 4 (accessor start mods inType) := by
  unfold accessor
  dsimp only
  infer_instance

instance (start : Nat) (mods : Option NodeList) : Proceeds 4 (indexSignature start mods) := by
  unfold indexSignature
  infer_instance

instance (start : Nat) (mods : Option NodeList) (asterisk : Option Node) (name : Node)
    (question : Option Node) : Proceeds 4 (methodRest start mods asterisk name question) := by
  unfold methodRest
  infer_instance

instance (start : Nat) (mods : Option NodeList) : Proceeds 4 (constructor start mods) := by
  unfold constructor
  infer_instance

instance (start : Nat) (mods : Option NodeList) (name : Node) (mark : Option Node) :
    Proceeds 4 (propertyRest start mods name mark) := by
  unfold propertyRest
  infer_instance

instance (start : Nat) (mods : Option NodeList) : Proceeds 4 (propertyOrMethod start mods) := by
  unfold propertyOrMethod
  dsimp only
  infer_instance

instance (start : Nat) : Proceeds 4 (staticBlock start) := by unfold staticBlock; infer_instance

instance : Proceeds 4 classMember := by
  unfold classMember
  infer_instance

instance (start : Nat) (mods : Option NodeList) :
    Proceeds 4 (propertyOrMethodSignature start mods) := by
  unfold propertyOrMethodSignature
  dsimp only
  infer_instance

instance : Proceeds 4 typeMember := by
  unfold typeMember
  infer_instance

instance : Opened (Begins .openBrace) typeMembers := by
  unfold typeMembers
  infer_instance

/-! ### Function types -/

instance : Proceeds 4 skipParameterStart := by unfold skipParameterStart; infer_instance

instance : Proceeds 4 atFunctionTypeParameters := by
  unfold atFunctionTypeParameters
  infer_instance

/-- A function type may begin with these. -/
def functionOpeners : List TokenKind := [.lessThan, .newKw, .openParen, .abstractKw]

instance : Tells atFunctionType fun σ => σ.kind ∈ functionOpeners where
  tells R s := by
    have htoken : token.run R s = (s.scanner.kind, s) := rfl
    rw [atFunctionType, run_bind, htoken]
    split <;> simp_all [functionOpeners]

instance : Proceeds ρ atFunctionType where
  starts := .token fun k => by
    have hparameters : Starts ρ (At .openParen) atFunctionTypeParameters fun _ => At .openParen :=
      .aheadOpened
    split
    · exact .named
    · exact .named
    · exact hparameters.mono
    · exact .named
    · exact .named

/-- A token of the given kind is taken as a node, or there is none. -/
lemma Starts.optional {k : TokenKind} {f : Option Node → Parse β} {out : β → Scanner → Prop}
    [∀ o, Proceeds 4 (f o)] (hno : Starts ρ (fun σ => K σ ∧ σ.kind ≠ k) (f none) out)
    (hk : k ≠ .endOfFile := by decide) : Starts ρ K (optionalToken k >>= f) out := by
  have hoptional : Starts ρ K (optionalToken k) fun o σ => o = none ∧ K σ ∧ σ.kind ≠ k :=
    .isAt (.take (.opened fun σ h he => hk (h.2.symm.trans he))) .pure
  refine .bind hoptional fun o => ?_
  cases o with
  | some n => exact .rest
  | none => exact hno.mono

instance : Opened (fun σ => σ.kind ∈ functionOpeners) functionType where
  starts ρ := by
    refine .look fun start => .optional (.look fun mods => .accept inferInstance ?_)
    refine .bind typeParameters_starts fun typeParams => .take (.opened ?_)
    rintro σ ⟨⟨⟨h, hn⟩, hnew⟩, hless⟩
    simp_all [functionOpeners]

/-! ### References and literals -/

instance : Proceeds ρ typeArgumentsOnLine where
  starts := .sub fun b => .ite .named <| .reread fun k =>
    .iteOf (fun h => .take (.opened (by simp_all))) fun _ => .named

instance : Proceeds ρ typeReference := by unfold typeReference; infer_instance

instance : Proceeds ρ typeQuery := by unfold typeQuery; infer_instance

instance : Proceeds 4 importTypeAttributes := by unfold importTypeAttributes; infer_instance

instance : Opened (fun σ => σ.kind ∈ [TokenKind.typeOfKw, .importKw]) importType where
  starts ρ := by
    refine .look fun start => .accept inferInstance (.take (.opened ?_))
    grind

instance : Proceeds ρ signedLiteral where
  starts := .token fun k => by split <;> exact .named

instance : Proceeds ρ literalType := by unfold literalType; infer_instance

/-! ### Tuples -/

instance : Proceeds ρ atNamedTupleMember := by
  unfold atNamedTupleMember
  refine .ahead (.sub fun _ => .sub fun b => .ite (.sub fun k => ?_) .named)
  split <;> exact .named

instance : Proceeds 4 tupleElementType := by unfold tupleElementType; infer_instance

instance : Proceeds 4 tupleElement := by unfold tupleElement; infer_instance

instance : Opened (Begins .openBracket) tupleType := by
  unfold tupleType
  infer_instance

/-! ### Mapped types -/

instance : Proceeds ρ atMappedType := by unfold atMappedType; infer_instance

instance (k : TokenKind) : Proceeds ρ (signedMark k) := by unfold signedMark; infer_instance

instance : Proceeds ρ strayMember := by unfold strayMember; infer_instance

instance : Proceeds 4 mappedParameter := by unfold mappedParameter; infer_instance

instance : Opened (Begins .openBrace) mappedType := by
  unfold mappedType
  infer_instance

/-! ### Other types -/

instance : Opened HasToken parenthesizedType := by
  unfold parenthesizedType
  infer_instance

instance : Opened (Begins .openBrace) typeLiteral := by
  unfold typeLiteral
  infer_instance

instance : Opened HasToken thisTypeOrPredicate := by
  unfold thisTypeOrPredicate
  infer_instance

instance : Proceeds ρ basicType where
  starts := .token fun k => by
    split
    iterate 20 exact .named
    · exact .opened
    · exact .look fun _ => .ite .opened .named
    · exact .look fun _ => .ite .opened .opened
    · exact .opened
    · exact .opened
    · exact .opened
    · exact .opened
    · exact .named

lemma brackets_starts (start : Nat) (type : Node) :
    Starts ρ K (brackets start type) fun o _ => o = none :=
  .look fun _ => .ite .pure (.acceptIf .pure)

instance : Proceeds ρ bracketedType := by
  have (start : Nat) (type : Node) : Proceeds ρ (iterate (brackets start) type) :=
    .iterate (fun type => brackets_starts start type) type
  unfold bracketedType
  infer_instance

instance : Proceeds 4 inferredParameter := by unfold inferredParameter; infer_instance

instance : Proceeds ρ typeOperator where
  starts := .look fun start => .token fun k => by
    split
    · exact .look fun operator => .take .opened
    · exact .look fun operator => .take .opened
    · exact .look fun operator => .take .opened
    · exact .take .opened
    · exact .named

instance {constituent : Parse Node} [Proceeds 4 constituent] :
    Proceeds 4 (typeOperand constituent) := by unfold typeOperand; infer_instance

lemma typeList_proceeds {operator : TokenKind} {form : Form} {constituent : Parse Node}
    [Proceeds ρ constituent] [Proceeds 4 constituent] (hk : operator ≠ .endOfFile := by decide) :
    Proceeds ρ (typeList operator form constituent) where
  starts := by
    have hrest {ρ : Nat} : Proceeds ρ (many (behind operator (typeOperand constituent))) :=
      .many (behind_starts operator _ hk)
    exact .sub fun start => .accept (by dsimp only; infer_instance) (by simpa using .named) hk

instance : Proceeds ρ intersectionType := typeList_proceeds

instance : Proceeds ρ unionType := typeList_proceeds

instance : Proceeds ρ anyType where
  starts := by
    refine .askIf .opened (.sub fun start => .sub fun checked => ?_)
    refine .bind (.both (.both (Starts.accepting (K := Anywhere)).mono)) fun conditional => .fact ?_
    rintro rfl
    exact .pure

instance : Proceeds ρ type := by unfold type; infer_instance

/-! ### Type arguments in expressions -/

instance : Proceeds ρ canFollowTypeArguments where
  starts := .token fun k => by split <;> exact .named

lemma typeArgumentsInExpression_starts :
    Starts ρ K typeArgumentsInExpression fun o _ => o = none := by
  refine .sub fun b => .ite (.triedOnly ?_) .pure
  exact .reread fun k => .iteOf (fun _ => .pure) fun hk => .take (.opened (by simp_all))

end EstreeLint.Grammar
