import EstreeLint.Proofs.Grammar.Elements
import EstreeLint.Proofs.Progress.Types

/-!
The rules for classes, expressions and elements go forward.
-/

namespace EstreeLint.Grammar

open Parse

variable {ρ : Nat} {K : Scanner → Prop}

set_option synthInstance.maxSize 20000

/-! ### Classes -/

instance : Proceeds 4 heritageType where
  starts := .sub fun start => .sub fun e => by
    dsimp only
    split
    · exact .named
    · exact .isAt (.take .opened) .named

instance : Opened HasToken heritageClause := by
  unfold heritageClause
  infer_instance

lemma heritageClause?_starts : Starts ρ K heritageClause? fun o _ => o = none :=
  .askIf (.take .opened) .pure

instance : Proceeds ρ heritageClauses := by
  have : Proceeds ρ (many heritageClause?) := .many heritageClause?_starts
  unfold heritageClauses
  infer_instance

instance (form : Form) (start : Nat) (mods : Option NodeList) :
    Opened (Begins .classKw) (classLike form start mods) := by
  unfold classLike
  infer_instance

/-! ### Lists of expressions -/

lemma commaOperand_starts (start : Nat) (left : Node) :
    Starts ρ K (commaOperand start left) fun o _ => o = none := .askIf (.take .opened) .pure

instance : Proceeds (ρ + 2) expression := by
  have (start : Nat) (left : Node) : Proceeds (ρ + 2) (iterate (commaOperand start) left) :=
    .iterate (commaOperand_starts start) left
  unfold expression
  infer_instance

instance : Proceeds (ρ + 2) fullExpression := by unfold fullExpression; infer_instance

instance : Proceeds 4 listElement where
  starts := .look fun start => .token fun k => by split <;> exact .named

instance : Opened (Begins .openParen) argumentList := by
  unfold argumentList
  infer_instance

instance : Opened (Begins .openBracket) arrayLiteral := by
  unfold arrayLiteral
  infer_instance

instance : Proceeds 4 objectElement := by unfold objectElement; infer_instance

instance : Opened (Begins .openBrace) objectLiteral := by
  unfold objectLiteral
  infer_instance

/-! ### Primary expressions -/

instance : Opened (Begins .openParen) parenthesized := by
  unfold parenthesized
  infer_instance

lemma asyncModifier_starts :
    Starts ρ K asyncModifier fun o σ => o = none ∧ K σ ∧ σ.kind ≠ .asyncKw :=
  .look fun start => .optional .pure

instance : Proceeds ρ asyncModifier := ⟨(asyncModifier_starts (K := Anywhere)).mono⟩

instance : Opened (fun σ => σ.kind ∈ [TokenKind.asyncKw, .functionKw]) functionExpression where
  starts ρ := by
    refine .look fun start => .bind asyncModifier_starts fun mods => .take (.opened ?_)
    grind

instance : Opened HasToken templateExpression := by
  unfold templateExpression
  infer_instance

instance : Proceeds ρ atTemplate := by unfold atTemplate; infer_instance

instance : Opened HasToken anyTemplate where
  starts ρ := .askIf .opened .opened

instance : Proceeds ρ atOptionalMember := by unfold atOptionalMember; infer_instance

instance (start : Nat) (tag : Node) (questionDot : Option Node) (args : Option NodeList) :
    Opened HasToken (taggedTemplate start tag questionDot args) := by
  unfold taggedTemplate
  infer_instance

instance (start : Nat) (e : Node) (questionDot : Option Node) :
    Proceeds ρ (propertyAccess start e questionDot) := by unfold propertyAccess; infer_instance

instance (start : Nat) (e : Node) (questionDot : Option Node) :
    Proceeds 4 (elementAccess start e questionDot) := by unfold elementAccess; infer_instance

instance (start : Nat) (e questionDot : Node) : Proceeds 4 (optionalLink start e questionDot) := by
  unfold optionalLink
  infer_instance

lemma trailingLink_starts (start : Nat) (e : Node) :
    Starts ρ K (trailingLink start e) fun o _ => o = none :=
  .askIf (.take .opened) (.found typeArgumentsInExpression_starts .pure)

lemma plainLink_starts (start : Nat) (e : Node) :
    Starts ρ K (plainLink start e) fun o _ => o = none := by
  refine .acceptIf (.askIf (.take .opened) (.look fun b => ?_))
  exact .ite (.acceptIf (trailingLink_starts start e)) (trailingLink_starts start e)

lemma memberLink_starts (start : Nat) (allowOptional : Bool) (e : Node) :
    Starts ρ K (memberLink start allowOptional e) fun o _ => o = none := by
  refine .ask (.ite (.take (.opened ?_)) (plainLink_starts start e)) (.iteOf ?_ fun _ => ?_)
  · grind
  · simp
  · exact plainLink_starts start e

instance (start : Nat) (allowOptional : Bool) (e : Node) :
    Proceeds ρ (memberLinks start allowOptional e) :=
  .iterate (memberLink_starts start allowOptional) e

instance : Proceeds 4 newCallee := by unfold newCallee; infer_instance

instance : Opened (Begins .newKw) newExpression := by
  unfold newExpression
  infer_instance

instance : Proceeds ρ noExpression := by unfold noExpression; infer_instance

instance : Proceeds ρ decoratedClass where
  starts := .sub fun start => .sub fun mods => .askIf .opened .named

instance : Proceeds ρ primary where
  starts := .token fun k => by
    split
    iterate 9 exact .named
    · exact .opened
    · exact .opened
    · exact .opened
    · exact .opened
    · exact .look fun _ => .ite .opened .named
    · exact .look fun _ => .opened
    · exact .named
    · exact .opened
    · exact .named
    · exact .named
    · exact .opened
    · exact .named
    · exact .named

/-! ### Calls -/

instance : Opened HasToken superExpression := by
  unfold superExpression
  infer_instance

instance (start : Nat) (callee : Node) (questionDot : Option Node) (typeArgs : Option NodeList) :
    Opened (Begins .openParen) (callRest start callee questionDot typeArgs) := by
  unfold callRest
  infer_instance

instance (start : Nat) (e questionDot : Node) : Proceeds 4 (optionalCall start e questionDot) where
  starts := .found typeArgumentsInExpression_starts .named

/-- More links may come only behind a call. -/
lemma callLink_starts (start : Nat) (e : Node) :
    Starts ρ K (callLink start e) fun x _ => x.2 = false :=
  .askIf (.take .opened) (.askIf (.take .opened) .pure)

instance (start : Nat) (e : Node) : Proceeds ρ (callLink start e) :=
  ⟨(callLink_starts start e (K := Anywhere)).mono⟩

lemma forward_linksAndCall (start : Nat) : (Loop.iterate (linksAndCall start)).Forward ρ := by
  refine ⟨fun x _ => x.2 = false, fun x => ?_, fun x R s h => ?_⟩
  · obtain ⟨e, more⟩ := x
    refine .ite (.sub fun e => .bind (callLink_starts start e) fun y => .pure ?_) (.pure ?_) <;>
      simp [Loop.iterate]
  · obtain ⟨e, more⟩ := x
    obtain rfl : more = false := h
    rfl

instance (start : Nat) (e : Node) : Proceeds ρ (callLinks start e) := by
  have (x : Node × Bool) : Proceeds ρ (iterate (linksAndCall start) x) :=
    iterate_eq (linksAndCall start) x ▸ (forward_linksAndCall start).proceeds x
  unfold callLinks
  infer_instance

instance : Proceeds ρ leftHandSide where
  starts := by
    have hmember : Proceeds ρ (do memberLinks (← pos) true (← primary)) := inferInstance
    refine .sub fun start => .token fun k => ?_
    split
    · refine .sub fun k => ?_
      split
      · exact .named
      · exact .named
      · exact .named
      · exact .named
    · exact .take .opened
    · exact .named

/-! ### Elements -/

instance : Opened HasToken nextText := inferInstanceAs (Opened _ (takeWith _))

instance : Proceeds ρ nextText := inferInstanceAs (Proceeds ρ (takeWith _))

instance (k : TokenKind) (inExpression : Bool) : Proceeds ρ (expectClosing k inExpression) := by
  unfold expectClosing
  infer_instance

instance : Proceeds ρ hyphenatedName := by unfold hyphenatedName; infer_instance

instance (start : Nat) (name : Node) : Proceeds ρ (namespacedRest start name) := by
  unfold namespacedRest
  infer_instance

lemma dottedTag_starts (start : Nat) (e : Node) :
    Starts ρ K (dottedTag start e) fun o _ => o = none := .acceptIf .pure

instance : Proceeds ρ tagName := by
  have (start : Nat) (e : Node) : Proceeds ρ (iterate (dottedTag start) e) :=
    .iterate (dottedTag_starts start) e
  unfold tagName
  infer_instance

instance (inExpression : Bool) : Opened (Begins .openBrace) (embedded inExpression) := by
  unfold embedded
  infer_instance

instance : Opened HasToken attributeValue where
  starts ρ := .takeThen .opened fun _ => .sub fun k => by split <;> exact .named

instance : Opened (Begins .openBrace) spreadAttribute := by
  unfold spreadAttribute
  infer_instance

instance (start : Nat) (name : Node) : Proceeds ρ (attributeRest start name) where
  starts := .isAt (.take .opened) .named

instance : Proceeds ρ jsxAttribute where
  starts := .sub fun start => .isAt (.take .opened) .named

instance : Proceeds ρ jsxAttributes := by unfold jsxAttributes; infer_instance

/-- What opens an element takes a token. -/
lemma openingTag_starts (inExpression : Bool) :
    Starts ρ K (openingTag inExpression) fun n _ => opened? n = none := by
  refine .sub fun start => .sub fun _ => .isAt (.take .opened) (.sub fun name => ?_)
  refine .isAt (.take .opened) (.sub fun args => .sub fun list => .isAt (.take .opened) ?_)
  refine .sub fun _ => .sub fun _ => finish_starts.mono (fun _ h => h) fun n _ h => ?_
  simp [opened?, h]

instance (inExpression : Bool) : Opened (Begins .lessThan) (openingTag inExpression) := by
  unfold openingTag
  infer_instance

instance (inExpression : Bool) : Proceeds ρ (closingTag inExpression) := by
  unfold closingTag
  infer_instance

instance (opening closing : Node) : Proceeds ρ (checkTags opening closing) := by
  unfold checkTags
  infer_instance

instance : Opened HasToken textChild := by
  unfold textChild
  infer_instance

lemma child_starts (opening : Node) : Starts 4 K (child opening) fun o _ => o = none := by
  refine .token fun k => ?_
  split
  · exact .pure
  · exact .pure
  · exact .take .opened
  · exact .take .opened
  · exact .take .opened
  · exact .take (reach_starts.mono (by simp +contextual [Goal.opener?]))
  · exact .sub fun _ => .pure

instance (form : Form) (start : Nat) (opening : Node) (inExpression : Bool) :
    Proceeds 4 (elementRest form start opening inExpression) := by
  have : Proceeds 4 (many (child opening)) := .many (child_starts opening)
  unfold elementRest
  infer_instance

instance (inExpression : Bool) : Proceeds ρ (element inExpression) where
  starts := by
    refine .sub fun start => .bind (openingTag_starts inExpression) fun opening => ?_
    split
    · exact .pure
    · exact .rest

instance (inExpression : Bool) : Opened (Begins .lessThan) (element inExpression) where
  starts ρ := .look fun start => .takeThen .opened fun opening => by split <;> exact .named

end EstreeLint.Grammar
