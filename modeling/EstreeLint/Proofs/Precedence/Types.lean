import EstreeLint.Grammar.Class
import EstreeLint.Proofs.Precedence.Grows

/-!
The rules for names, bindings, members, types and classes make no binary expression.
-/

namespace EstreeLint.Grammar

open Parse

set_option synthInstance.maxSize 20000

variable {R : Runner}

/-! ### Names -/

instance : Grows R memberName := by unfold memberName; infer_instance

instance (start : Nat) (entity : Node) : Grows R (dottedName start entity) := by
  unfold dottedName
  infer_instance

instance (allowReserved : Bool) : Grows R (entityName allowReserved) := by
  unfold entityName
  dsimp only
  infer_instance

instance : Grows R exportedName := by unfold exportedName; infer_instance

instance : Grows R templatePiece := by unfold templatePiece; infer_instance

lemma template_grows {form spanForm : Form} {substitution : Parse Node} [Grows R substitution]
    [IsTrue (isOther (.form form))] [IsTrue (isOther (.form spanForm))] :
    Grows R (template form spanForm substitution) := by
  have hspan (x : List Node × Bool) : Grows R (nextSpan spanForm substitution x) := by
    obtain ⟨spans, more⟩ := x
    unfold nextSpan templateSpan
    infer_instance
  unfold template templateSpan
  infer_instance

variable [GrowsGoals R]

instance : Grows R propertyName := by
  refine .after fun k => ?_
  split <;> infer_instance

instance : Grows R declaredType := by unfold declaredType; infer_instance

instance : Grows R initializer := by unfold initializer; infer_instance

instance : Grows R importAttribute := by unfold importAttribute; infer_instance

instance (asKey : Bool) : Grows R (importAttributes asKey) := by
  unfold importAttributes
  dsimp only
  infer_instance

/-! ### Modifiers -/

instance : Grows R decorator := by unfold decorator; infer_instance

instance : Grows R modifier := by
  unfold modifier
  dsimp only
  infer_instance

instance : Grows R modifiers := by unfold modifiers; infer_instance

/-! ### Bindings -/

instance : Grows R objectBindingElement := by unfold objectBindingElement; infer_instance

instance : Grows R arrayBindingElement := by unfold arrayBindingElement; infer_instance

instance : Grows R binding := by
  refine .after fun start => .after fun k => ?_
  split <;> infer_instance

instance : Grows R parameter := by unfold parameter; infer_instance

instance : Grows R parameters := by unfold parameters; infer_instance

instance (k : TokenKind) : Grows R (typeAfter k) := by unfold typeAfter; infer_instance

instance : Grows R varianceWord := by unfold varianceWord; infer_instance

instance : Grows R typeParameter := by unfold typeParameter; infer_instance

instance : Grows R typeParameters := by unfold typeParameters; infer_instance

instance : Grows R typeArguments := by unfold typeArguments; infer_instance

/-! ### Blocks and signatures -/

instance (form : Form) [IsTrue (isOther (.form form))] : Grows R (braced form) := by
  unfold braced
  infer_instance

instance : Grows R block := by unfold block; infer_instance

instance : Grows R bodyOrSemicolon := by unfold bodyOrSemicolon; infer_instance

instance : Grows R typeMemberEnd := by unfold typeMemberEnd; infer_instance

instance : Grows R thisType := by unfold thisType; infer_instance

instance : Grows R typeOrPredicate := by
  unfold typeOrPredicate
  dsimp only
  infer_instance

instance : Grows R returnType := by unfold returnType; infer_instance

instance (ending : Parse (Option Node)) [Grows R ending] : Grows R (signature ending) := by
  unfold signature
  infer_instance

instance : Grows R typeSignature := by unfold typeSignature; infer_instance

/-! ### Members -/

instance (start : Nat) (mods : Option NodeList) (inType : Bool) :
    Grows R (accessor start mods inType) := by
  unfold accessor
  dsimp only
  infer_instance

instance (start : Nat) (mods : Option NodeList) : Grows R (indexSignature start mods) := by
  unfold indexSignature
  infer_instance

instance (start : Nat) (mods : Option NodeList) (asterisk : Option Node) (name : Node)
    (question : Option Node) : Grows R (methodRest start mods asterisk name question) := by
  unfold methodRest
  infer_instance

instance (start : Nat) (mods : Option NodeList) : Grows R (constructor start mods) := by
  unfold constructor
  infer_instance

instance (start : Nat) (mods : Option NodeList) (name : Node) (mark : Option Node) :
    Grows R (propertyRest start mods name mark) := by
  unfold propertyRest
  infer_instance

instance (start : Nat) (mods : Option NodeList) : Grows R (propertyOrMethod start mods) := by
  unfold propertyOrMethod
  dsimp only
  infer_instance

instance (start : Nat) : Grows R (staticBlock start) := by unfold staticBlock; infer_instance

instance : Grows R classMember := by unfold classMember; infer_instance

instance (start : Nat) (mods : Option NodeList) :
    Grows R (propertyOrMethodSignature start mods) := by
  unfold propertyOrMethodSignature
  dsimp only
  infer_instance

instance : Grows R typeMember := by unfold typeMember; infer_instance

instance : Grows R typeMembers := by unfold typeMembers; infer_instance

/-! ### Types -/

instance : Grows R functionType := by
  unfold functionType
  dsimp only
  infer_instance

instance : Grows R typeArgumentsOnLine := by unfold typeArgumentsOnLine; infer_instance

instance : Grows R typeReference := by unfold typeReference; infer_instance

instance : Grows R typeQuery := by unfold typeQuery; infer_instance

instance : Grows R importTypeAttributes := by unfold importTypeAttributes; infer_instance

instance : Grows R importType := by unfold importType; infer_instance

instance : Grows R signedLiteral := by
  refine .after fun k => ?_
  split <;> infer_instance

instance : Grows R literalType := by unfold literalType; infer_instance

instance : Grows R tupleElementType := by unfold tupleElementType; infer_instance

instance : Grows R tupleElement := by unfold tupleElement; infer_instance

instance : Grows R tupleType := by unfold tupleType; infer_instance

instance (k : TokenKind) : Grows R (signedMark k) := by unfold signedMark; infer_instance

instance : Grows R strayMember := by unfold strayMember; infer_instance

instance : Grows R mappedParameter := by unfold mappedParameter; infer_instance

instance : Grows R mappedType := by unfold mappedType; infer_instance

instance : Grows R parenthesizedType := by unfold parenthesizedType; infer_instance

instance : Grows R typeLiteral := by unfold typeLiteral; infer_instance

instance : Grows R thisTypeOrPredicate := by unfold thisTypeOrPredicate; infer_instance

instance : Grows R basicType := by
  have htemplate : Grows R (template .templateLiteralType .templateLiteralTypeSpan (reach .type)) :=
    template_grows
  refine .after fun k => ?_
  split <;> infer_instance

instance (start : Nat) (type : Node) : Grows R (brackets start type) := by
  unfold brackets
  infer_instance

instance : Grows R bracketedType := by unfold bracketedType; infer_instance

instance : Grows R inferredParameter := by
  unfold inferredParameter
  dsimp only
  infer_instance

instance : Grows R typeOperator := by
  refine .after fun start => .after fun k => ?_
  split <;> infer_instance

instance (constituent : Parse Node) [Grows R constituent] : Grows R (typeOperand constituent) := by
  unfold typeOperand
  infer_instance

instance (operator : TokenKind) (form : Form) (constituent : Parse Node) [Grows R constituent]
    [IsTrue (isOther (.form form))] : Grows R (typeList operator form constituent) := by
  unfold typeList
  dsimp only
  infer_instance

instance : Grows R intersectionType := by unfold intersectionType; infer_instance

instance : Grows R unionType := by unfold unionType; infer_instance

instance : Grows R anyType := by unfold anyType; infer_instance

instance : Grows R type := by unfold type; infer_instance

instance : Grows R typeArgumentsInExpression := by
  have hfollow : Peeks canFollowTypeArguments := Peeks.andThen fun k => by split <;> infer_instance
  unfold typeArgumentsInExpression
  infer_instance

/-! ### Classes -/

instance : Grows R heritageType := by
  refine .after fun start => .after fun e => ?_
  split <;> infer_instance

instance : Grows R heritageClause := by unfold heritageClause; infer_instance

instance : Grows R heritageClause? := by unfold heritageClause?; infer_instance

instance : Grows R heritageClauses := by unfold heritageClauses; infer_instance

instance (form : Form) (start : Nat) (mods : Option NodeList) [IsTrue (isOther (.form form))] :
    Grows R (classLike form start mods) := by
  unfold classLike
  infer_instance

end EstreeLint.Grammar
