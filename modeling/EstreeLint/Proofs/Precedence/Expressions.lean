import EstreeLint.Grammar.Element
import EstreeLint.Proofs.Precedence.Types

/-!
The rules for expressions up to calls, and for elements, make no binary expression but those with a
comma. What they give can be an operand of any operator.
-/

namespace EstreeLint.Grammar

open Parse

set_option synthInstance.maxSize 20000

variable {β : Type} {R : Runner}

/-! ### Operands -/

/-- Kinds of node that no operator binds less tightly than. -/
@[reducible] def isOperand : NodeKind → Bool
  | .form .binaryExpression | .form .conditionalExpression | .form .arrowFunction
  | .form .yieldExpression | .form .computedPropertyName | .form .parenthesizedType
  | .form .parameter | .form .bindingElement | .form .moduleDeclaration => false
  | _ => true

lemma isOther_of_isOperand {k : NodeKind} (h : isOperand k = true) : isOther k = true := by
  unfold isOther
  split
  iterate 2 cases h
  · rfl

lemma not_isHolder_of_isOperand {k : NodeKind} (h : isOperand k = true) : isHolder k = false := by
  unfold isHolder
  split
  iterate 4 cases h
  · rfl

def Operand (n : Node) : Prop := isOperand n.kind = true

lemma Operand.not_binary {n : Node} (h : Operand n) : n.kind ≠ .form .binaryExpression := by
  intro hk
  rw [Operand, hk] at h
  cases h

lemma Operand.operator? {n : Node} (h : Operand n) : operator? n = none :=
  if_neg (by simpa [Tree.isForm] using h.not_binary)

lemma Operand.not_loose {n : Node} (h : Operand n) : ¬ IsLoose n := by
  rintro (⟨k, hk, -⟩ | hk)
  · rw [h.operator?] at hk
    cases hk
  · have hkinds : ∀ k ∈ [NodeKind.form .conditionalExpression, .form .arrowFunction,
        .form .yieldExpression], isOperand k = false := by decide
    exact Bool.false_ne_true ((hkinds _ hk).symm.trans h)

/-! ### Binary expressions -/

section OfParts

variable {id start stop : Nat} {flags : NodeFlags} {left mark right : Node} {k : TokenKind}

lemma operator?_ofParts (hk : mark.kind = .token k) :
    operator? (.ofParts id (.form .binaryExpression) start stop flags
      [.one .left left, .one .operator mark, .one .right right]) = some k := by
  simp [operator?, Tree.isForm, Node.part?_ofParts, Tree.token?, hk, NodeKind.token?]

/-- A binary expression with its operator between its operands. -/
lemma graded_ofParts (hk : mark.kind = .token k)
    (h : isTight k = true → 0 < binaryPrecedence k ∧ LeftOf k left ∧ RightOf k right)
    (hcomma : k = .comma → isHolder left.kind = false) :
    Graded (.ofParts id (.form .binaryExpression) start stop flags
      [.one .left left, .one .operator mark, .one .right right]) := by
  refine ⟨fun _ => ⟨k, operator?_ofParts hk, fun ht => ?_, fun hc => ?_⟩, nofun⟩
  · obtain ⟨hprec, hleft, hright⟩ := h ht
    exact ⟨hprec, ⟨_, by simp [Node.part?_ofParts], hleft.withRole .left⟩,
      ⟨_, by simp [Node.part?_ofParts], hright.withRole .right⟩⟩
  · refine ⟨left.withRole .left, by simp [Node.part?_ofParts], by simpa using hcomma hc, ?_⟩
    intro p hp
    obtain rfl : right.withRole .right = p := by simpa [Node.part?_ofParts] using hp
    exact .cons_cons _ (.cons _ (.refl _))

end OfParts

/-- The rest of a binary expression whose operator has been read and is not tight. -/
lemma Grows.loose {start : Nat} {left mark : Node} {k : TokenKind} {p : Parse Node} [Grows R p]
    (hk : mark.kind = .token k) (hloose : isTight k = false)
    (hcomma : k = .comma → isHolder left.kind = false) : Grows R (do
      let right ← p
      finish .binaryExpression start
        [.one .left left, .one .operator mark, .one .right right]) := by
  refine .after fun right => .after fun stop => .push fun id =>
    graded_ofParts hk (fun ht => ?_) hcomma
  rw [hloose] at ht
  cases ht

variable [GrowsGoals R]

lemma commaOperand_grows (start : Nat) {left : Node} (hleft : isHolder left.kind = false) :
    Grows R (commaOperand start left) where
  grows s h := by
    have hat : (isAt .comma).run R s = (s.scanner.kind == .comma, s) := rfl
    unfold commaOperand
    rw [run_bind, hat]
    dsimp only
    split
    · next hk =>
      have hmark : ((tokenNode).run R s).1.kind = .token .comma :=
        congrArg NodeKind.token (beq_iff_eq.1 hk)
      have hjoined : Grows R (do
          let right ← reach (.assignment true)
          finish .binaryExpression start
            [.one .left left, .one .operator ((tokenNode).run R s).1, .one .right right]) :=
        .loose hmark rfl fun _ => hleft
      exact hjoined.grows _ (Grows.grows (p := tokenNode) s h)
    · exact h

instance : Grows R expression := by
  have hjoined (start : Nat) :
    Grows R (reach (.assignment true) >>= iterate (commaOperand start)) := by
    refine .made (made_assignment true) fun e he => ?_
    refine .loop (P := fun n => isHolder n.kind = false) he (fun a _ => ?_) fun a ha => ?_
    · refine .after fun b => .ite (.after fun _ => .after fun _ => ?_) .nothing
      exact .given (Made.finish.mono fun n hn => by rw [hn])
    · exact commaOperand_grows start ha
  unfold expression
  infer_instance

instance : Grows R fullExpression := by unfold fullExpression; infer_instance

/-! ### Lists -/

instance : Grows R listElement := by
  refine .after fun start => .after fun k => ?_
  split <;> infer_instance

instance : Grows R argumentList := by unfold argumentList; infer_instance

instance : Grows R arrayLiteral := by unfold arrayLiteral; infer_instance

instance : Grows R objectElement := by
  unfold objectElement
  infer_instance

instance : Grows R objectLiteral := by unfold objectLiteral; infer_instance

/-! ### Primary expressions -/

instance : Grows R parenthesized := by unfold parenthesized; infer_instance

omit [GrowsGoals R] in
instance : Grows R asyncModifier := by unfold asyncModifier; infer_instance

instance : Grows R functionExpression := by unfold functionExpression; infer_instance

instance : Grows R templateExpression := template_grows

instance : Grows R anyTemplate := by unfold anyTemplate; infer_instance

instance (start : Nat) (tag : Node) (questionDot : Option Node) (args : Option NodeList) :
    Grows R (taggedTemplate start tag questionDot args) := by
  unfold taggedTemplate
  infer_instance

omit [GrowsGoals R] in
instance (start : Nat) (e : Node) (questionDot : Option Node) :
    Grows R (propertyAccess start e questionDot) := by
  unfold propertyAccess
  infer_instance

instance (start : Nat) (e : Node) (questionDot : Option Node) :
    Grows R (elementAccess start e questionDot) := by
  unfold elementAccess
  infer_instance

omit [GrowsGoals R] in
instance : Grows R atTemplate := by unfold atTemplate; infer_instance

omit [GrowsGoals R] in
instance : Grows R atOptionalMember := by unfold atOptionalMember; infer_instance

instance (start : Nat) (e questionDot : Node) : Grows R (optionalLink start e questionDot) := by
  unfold optionalLink
  infer_instance

instance (start : Nat) (e : Node) : Grows R (trailingLink start e) := by
  unfold trailingLink
  refine .after fun b => .ite inferInstance (.after fun args => ?_)
  cases args <;> infer_instance

instance (start : Nat) (e : Node) : Grows R (plainLink start e) := by
  unfold plainLink
  dsimp only
  infer_instance

instance (start : Nat) (allowOptional : Bool) (e : Node) :
    Grows R (memberLink start allowOptional e) := by
  unfold memberLink
  infer_instance

instance (start : Nat) (allowOptional : Bool) (e : Node) :
    Grows R (memberLinks start allowOptional e) := by
  unfold memberLinks
  infer_instance

instance : Grows R newCallee := by unfold newCallee; infer_instance

instance : Grows R newExpression := by
  unfold newExpression
  dsimp only
  infer_instance

omit [GrowsGoals R] in
instance : Grows R noExpression := by unfold noExpression; infer_instance

instance : Grows R decoratedClass := by unfold decoratedClass; infer_instance

instance : Grows R primary := by
  refine .after fun k => ?_
  split <;> infer_instance

/-! ### Calls -/

omit [GrowsGoals R] in
instance : Grows R superExpression := by
  unfold superExpression
  infer_instance

instance (start : Nat) (callee : Node) (questionDot : Option Node) (typeArgs : Option NodeList) :
    Grows R (callRest start callee questionDot typeArgs) := by
  unfold callRest
  infer_instance

instance (start : Nat) (e questionDot : Node) : Grows R (optionalCall start e questionDot) := by
  unfold optionalCall
  infer_instance

instance (start : Nat) (e : Node) : Grows R (callLink start e) := by
  unfold callLink
  dsimp only
  infer_instance

instance (start : Nat) (x : Node × Bool) : Grows R (linksAndCall start x) := by
  obtain ⟨e, more⟩ := x
  unfold linksAndCall
  infer_instance

instance (start : Nat) (e : Node) : Grows R (callLinks start e) := by
  unfold callLinks
  infer_instance

instance : Grows R leftHandSide := by
  refine .after fun start => .after fun k => ?_
  split
  · refine .after fun next => ?_
    split <;> infer_instance
  · infer_instance
  · infer_instance

/-! ### Elements -/

section Elements

omit [GrowsGoals R]

instance : Grows R nextText := by unfold nextText; infer_instance

instance (k : TokenKind) (inExpression : Bool) : Grows R (expectClosing k inExpression) := by
  unfold expectClosing
  dsimp only
  infer_instance

instance : Grows R hyphenatedName := by unfold hyphenatedName; infer_instance

instance (start : Nat) (name : Node) : Grows R (namespacedRest start name) := by
  unfold namespacedRest
  infer_instance

instance (start : Nat) (e : Node) : Grows R (dottedTag start e) := by
  unfold dottedTag
  infer_instance

instance : Grows R tagName := by unfold tagName; infer_instance

instance (inExpression : Bool) : Grows R (closingTag inExpression) := by
  unfold closingTag
  infer_instance

instance (opening closing : Node) : Grows R (checkTags opening closing) := by
  unfold checkTags
  infer_instance

instance : Grows R textChild := by unfold textChild; infer_instance

end Elements

instance (inExpression : Bool) : Grows R (embedded inExpression) := by
  unfold embedded
  infer_instance

instance : Grows R attributeValue := by
  refine .after fun _ => .after fun k => ?_
  split <;> infer_instance

instance : Grows R spreadAttribute := by unfold spreadAttribute; infer_instance

instance (start : Nat) (name : Node) : Grows R (attributeRest start name) := by
  unfold attributeRest
  infer_instance

instance : Grows R jsxAttribute := by
  unfold jsxAttribute
  infer_instance

instance : Grows R jsxAttributes := by unfold jsxAttributes; infer_instance

instance (inExpression : Bool) : Grows R (openingTag inExpression) := by
  unfold openingTag
  dsimp only
  infer_instance

instance (opening : Node) : Grows R (child opening) := by
  refine .after fun k => ?_
  split <;> infer_instance

instance (form : Form) (start : Nat) (opening : Node) (inExpression : Bool)
    [IsTrue (isOther (.form form))] : Grows R (elementRest form start opening inExpression) := by
  unfold elementRest
  infer_instance

omit [GrowsGoals R] in
lemma isOperand_of_opened? {tag : Node} {form : Form} (h : opened? tag = some form) :
    isOperand (.form form) = true := by
  unfold opened? at h
  split at h
  · obtain rfl := Option.some.inj h
    rfl
  · obtain rfl := Option.some.inj h
    rfl
  · cases h

instance (inExpression : Bool) : Grows R (element inExpression) := by
  refine .after fun start => .after fun opening => ?_
  cases hform : opened? opening with
  | none => exact inferInstanceAs (Grows R (pure opening))
  | some form =>
    have : IsTrue (isOther (.form form)) := ⟨isOther_of_isOperand (isOperand_of_opened? hform)⟩
    exact inferInstanceAs (Grows R (elementRest form start opening inExpression))

/-! ### What the rules make -/

namespace Made

omit [GrowsGoals R]

lemma ofToken {p : Parse Node} (h : Made R p (Demand.Met .token)) : Made R p Operand := by
  refine h.mono fun n hn => ?_
  obtain ⟨k, hk⟩ := hn
  rw [Operand, hk]

lemma operand {form : Form} {start : Nat} {parts : List Part} {flags : NodeFlags}
    [h : IsTrue (isOperand (.form form))] :
    Made R (Parse.finish form start parts flags) Operand := fun _ => h.eq

end Made

section Operands

open Made

omit [GrowsGoals R]

lemma made_identifier : Made R identifier Operand :=
  .after fun _ => .ite word.ofToken <| .after fun _ =>
    .ite (.after fun _ => word.ofToken) (.after fun _ => missing.ofToken)

lemma made_template {form spanForm : Form} {substitution : Parse Node}
    [IsTrue (isOperand (.form form))] : Made R (template form spanForm substitution) Operand := by
  unfold template
  refine .after fun _ => .after fun _ => .after fun _ => .after fun _ => .after fun _ => ?_
  exact .after fun _ => operand

lemma made_taggedTemplate {start : Nat} {tag : Node} {questionDot : Option Node}
    {args : Option NodeList} : Made R (taggedTemplate start tag questionDot args) Operand :=
  .after fun _ => operand

lemma made_propertyAccess {start : Nat} {e : Node} {questionDot : Option Node} :
    Made R (propertyAccess start e questionDot) Operand := .after fun _ => operand

lemma made_elementAccess {start : Nat} {e : Node} {questionDot : Option Node} :
    Made R (elementAccess start e questionDot) Operand := by
  unfold elementAccess
  refine .after fun _ => .ite (.after fun _ => .after fun _ => ?_) (.after fun _ => ?_)
  · exact .after fun _ => operand
  · exact .after fun _ => operand

lemma made_optionalLink {start : Nat} {e questionDot : Node} :
    Made R (optionalLink start e questionDot) fun o => ∀ n ∈ o, Operand n := by
  refine .after fun _ => .ite made_propertyAccess.given (.after fun _ => ?_)
  exact .ite made_elementAccess.given (.after fun _ => .ite made_taggedTemplate.given nothing)

lemma made_trailingLink {start : Nat} {e : Node} :
    Made R (trailingLink start e) fun o => ∀ n ∈ o, Operand n := by
  refine .after fun _ => .ite made_taggedTemplate.given (.after fun args => ?_)
  cases args with
  | none => exact nothing
  | some args => exact operand.given

lemma made_plainLink {start : Nat} {e : Node} :
    Made R (plainLink start e) fun o => ∀ n ∈ o, Operand n := by
  refine .after fun _ => .ite made_propertyAccess.given (.after fun _ => ?_)
  refine .ite (.after fun _ => operand.given) (.after fun _ => ?_)
  exact .ite (.after fun _ => .ite made_elementAccess.given made_trailingLink) made_trailingLink

lemma made_memberLinks {start : Nat} {allowOptional : Bool} {e : Node} (he : Operand e) :
    Made R (memberLinks start allowOptional e) Operand := by
  refine .iterate he fun e _ => .after fun b => .ite (.after fun _ => ?_) ?_
  · exact made_optionalLink
  · exact made_plainLink

lemma made_classLike {start : Nat} {mods : Option NodeList} :
    Made R (classLike .classExpression start mods) Operand := by
  unfold classLike
  have hrest (name : Option Node) : Made R (do
      let typeParams ← typeParameters
      let heritage ← heritageClauses
      expect_ .openBrace
      let members ← listUntil [.closeBrace] classMember
      expect_ .closeBrace
      Parse.finish .classExpression start
        [.optional .modifier mods, .one .name name, .optional .typeParameter typeParams,
          .optional .heritage heritage, .many .member members]) Operand :=
    .after fun _ => .after fun _ => .after fun _ => .after fun _ => .after fun _ => operand
  refine .after fun _ => .after fun b => ?_
  exact .ite (.after fun _ => hrest _) (.after fun _ => hrest _)

lemma made_noExpression : Made R noExpression Operand := .after fun _ => missing.ofToken

lemma made_functionExpression : Made R functionExpression Operand := by
  unfold functionExpression
  exact .after fun _ => .after fun _ => .after fun _ => .after fun _ => .after fun _ => operand

lemma made_newExpression : Made R newExpression Operand := by
  unfold newExpression
  refine .after fun _ => .after fun _ => .after fun _ => .ite (.after fun _ => operand) ?_
  refine .after fun callee => .after fun _ => .ite (.after fun _ => .after fun _ => ?_)
    (.after fun _ => ?_)
  · exact .ite (.after fun _ => operand) (.after fun _ => operand)
  · exact .ite (.after fun _ => operand) (.after fun _ => operand)

lemma made_primary : Made R primary Operand := by
  refine .after fun k => ?_
  split
  iterate 4 exact literal.ofToken
  iterate 5 exact tokenNode.ofToken
  · exact .after fun _ => .after fun _ => .after fun _ => .after fun _ => operand
  · exact .after fun _ => .after fun _ => operand
  · exact .after fun _ => .after fun _ => operand
  · exact made_functionExpression
  · exact .after fun _ => .ite made_functionExpression made_identifier
  · exact .after fun _ => made_classLike
  · exact .after fun _ => .after fun _ => .after fun _ => .ite made_classLike made_noExpression
  · exact made_newExpression
  iterate 2 exact .after fun _ => literal.ofToken
  · exact made_template
  · exact .after fun _ => leaf.ofToken
  · exact .after fun _ => .ite made_identifier made_noExpression

/-! ### Operands with calls -/

lemma made_superExpression : Made R superExpression Operand := by
  unfold superExpression
  refine .after fun _ => tokenNode.ofToken.bind fun e he => .after fun _ => .ite (.pure he) ?_
  exact .after fun _ => .after fun _ => operand

lemma made_callRest {start : Nat} {callee : Node} {questionDot : Option Node}
    {typeArgs : Option NodeList} : Made R (callRest start callee questionDot typeArgs) Operand :=
  .after fun _ => operand

lemma made_optionalCall {start : Nat} {e questionDot : Node} :
    Made R (optionalCall start e questionDot) fun x => Operand x.1 := by
  refine .after fun typeArgs => .after fun _ => .ite ?_ (.after fun _ => .ite ?_ ?_)
  · exact made_taggedTemplate.bind fun n hn => .pure hn
  · exact made_callRest.bind fun n hn => .pure hn
  · exact .after fun _ => .after fun _ => operand.bind fun n hn => .pure hn

lemma made_callLinks {start : Nat} {e : Node} (he : Operand e) :
    Made R (callLinks start e) Operand := by
  have hcall (e : Node) (he : Operand e) : Made R (callLink start e) fun x => Operand x.1 := by
    refine .after fun _ => .ite (.after fun _ => made_optionalCall) (.after fun _ => ?_)
    exact .ite (made_callRest.bind fun n hn => .pure hn) (.pure he)
  have hlinks : Made R (iterate (linksAndCall start) (e, true)) fun x => Operand x.1 := by
    refine .iterate he fun x hx => ?_
    obtain ⟨e, more⟩ := x
    refine .ite ?_ (.pure (by simp))
    refine (made_memberLinks hx).bind fun e he => (hcall e he).bind fun x hx => .pure ?_
    exact fun y hy => Option.some.inj hy ▸ hx
  exact hlinks.bind fun x hx => .pure hx

lemma made_leftHandSide : Made R leftHandSide Operand := by
  have hlinks (start : Nat) {p : Parse Node} (hp : Made R p Operand) :
      Made R (p >>= callLinks start) Operand := hp.bind fun e he => made_callLinks he
  have hmember (start : Nat) :
      Made R ((do memberLinks start true (← primary)) >>= callLinks start) Operand :=
    hlinks start (made_primary.bind fun e he => made_memberLinks he)
  refine .after fun start => .after fun k => ?_
  split
  · refine .after fun next => ?_
    split
    iterate 2 exact hlinks start tokenNode.ofToken
    · exact .after fun _ => .after fun _ => .after fun _ => hlinks start operand
    · exact hmember start
  · exact hlinks start made_superExpression
  · exact hmember start

/-! ### Elements as operands -/

lemma made_openingTag {inExpression : Bool} : Made R (openingTag inExpression) Operand := by
  unfold openingTag
  refine .after fun _ => .after fun _ => .after fun _ => .ite (.after fun _ => operand) ?_
  refine .after fun _ => .after fun _ => .ite (.after fun _ => .after fun _ => ?_)
    (.after fun _ => .after fun _ => ?_)
  all_goals
    exact .after fun _ => .ite (.after fun _ => operand) (.after fun _ => .after fun _ => operand)

lemma made_element {inExpression : Bool} : Made R (element inExpression) Operand := by
  refine .after fun start => made_openingTag.bind fun opening hopening => ?_
  cases hform : opened? opening with
  | none => exact .pure hopening
  | some form =>
    have : IsTrue (isOperand (.form form)) := ⟨isOperand_of_opened? hform⟩
    unfold elementRest
    exact .after fun _ => .after fun _ => .after fun _ => .after fun _ => .after fun _ => operand

end Operands

end EstreeLint.Grammar
