import EstreeLint.Grammar.Name
import EstreeLint.Proofs.Grammar.Reaches

/-!
What the rules for names build.
-/

namespace EstreeLint.Grammar

open Parse
open Estree (Usable IsSpan IsAttribute IsAttributes usable_of_token usable_of_form)

variable {text : Source} {R : Runner} {m : Mark} {ns : List Node} {K : Scanner → Prop}

/-! ### Names and literals -/

/-- A name is usable. -/
lemma usable_of_identifier {n : Node} (h : n.kind = .token .identifier) : Usable n :=
  usable_of_token h (by decide)

/-- A literal that a rule is for. -/
lemma literal_usable (ks : List TokenKind)
    (h : ∀ k ∈ ks, Ordinary k ∧ Estree.isRuled (.token k) = true := by decide) :
    Builds text R (fun σ => σ.kind ∈ ks) literal Usable :=
  (literal_builds (P := (· ∈ ks)) fun k hk => (h k hk).1).mono
    (fun _ ⟨k, hn, hk⟩ => usable_of_token hn (h k hk).2) fun _ h => h

lemma tokenNode_usable (ks : List TokenKind)
    (h : ∀ k ∈ ks, Ordinary k ∧ Estree.isRuled (.token k) = true := by decide) :
    Builds text R (fun σ => σ.kind ∈ ks) tokenNode Usable :=
  (tokenNode_builds (P := (· ∈ ks)) fun k hk => (h k hk).1).mono
    (fun _ ⟨k, hn, hk⟩ => usable_of_token hn (h k hk).2) fun _ h => h

instance identifierName_usable : Builds text R Anywhere identifierName Usable :=
  identifierName_builds.mono fun _ => usable_of_identifier

instance identifier_usable : Builds text R Anywhere identifier Usable :=
  identifier_builds.mono fun _ => usable_of_identifier

instance privateIdentifier_usable :
    Builds text R (At .privateIdentifier) privateIdentifier Usable :=
  privateIdentifier_builds.mono (fun _ h => usable_of_token h (by decide)) fun _ h => h

instance memberName_builds : Builds text R Anywhere memberName Usable := by
  refine ⟨fun m => ?_⟩
  exact .askIf (.last privateIdentifier_usable) (.last identifierName_usable)

instance entityName_builds (allowReserved : Bool) :
    Builds text R Anywhere (entityName allowReserved) Usable := by
  refine ⟨fun m => ?_⟩
  refine .start (.choose (fun _ => identifierName_usable.mono fun _ h => h)
    (fun _ => identifier_usable.mono fun _ h => h) fun first hfirst => ?_)
  refine iterate_goes _ Usable hfirst fun entity he => ?_
  refine .acceptIf (.sub memberName_builds fun right hright => ?_) (.pure (by simp) (by simp))
  exact .bind .build fun n hn => .pure rfl (by simpa using hn)

instance exportedName_builds : Builds text R Anywhere exportedName Usable := by
  refine ⟨fun m => ?_⟩
  exact .askIf (.last (literal_usable [.stringLiteral])) (.last identifierName_usable)

section

variable [Reaches text R]

instance propertyName_builds : Builds text R Anywhere propertyName Usable := by
  refine ⟨fun m => ?_⟩
  refine .token fun k => ?_
  split
  · exact .last (literal_usable [.stringLiteral])
  · exact .last (literal_usable [.numericLiteral])
  · exact .last (literal_usable [.bigIntLiteral])
  · exact .last privateIdentifier_usable
  · exact .start (.next (.sub (.withContext _ _ (reach_builds _)) fun e he => .expect_ .build))
  · exact .last identifierName_usable

/-! ### What follows a name -/

instance declaredType_builds :
    Builds text R Anywhere declaredType fun o => ∀ n ∈ o, Usable n :=
  behind_builds (reach_builds _)

instance initializer_builds :
    Builds text R Anywhere initializer fun o => ∀ n ∈ o, Usable n :=
  behind_builds (reach_builds _)

end

/-! ### Templates -/

instance templatePiece_builds : Builds text R Anywhere templatePiece Usable := by
  refine ⟨fun m => ?_⟩
  refine .isAt ?_ (.expect_missing fun _ h => h.2)
  refine .rescanAs (fun σ => σ.fullStart = m.pos ∧
    σ.kind ∈ [TokenKind.templateMiddle, .templateTail]) (f := fun _ => literal) ?_ fun k => ?_
  · intro σ hs hk
    obtain ⟨hsound, hkind⟩ := hs.rescanTemplate hk.2
    exact ⟨hsound, rfl, hk.1.2, by simpa using hkind⟩
  · exact .last (literal_usable [.templateMiddle, .templateTail]) (fun _ h => h)
      fun _ h => ⟨h.1.2, h.1.1⟩

lemma templateSpan_builds {form : Form} {substitution : Parse Node}
    (hform : Estree.isRuled (.form form) = false)
    (h : Builds text R Anywhere substitution Usable) :
    Builds text R Anywhere (templateSpan form substitution) fun x => IsSpan x.1 := by
  refine ⟨fun m => ?_⟩
  refine .start (.sub h fun e he => .sub templatePiece_builds fun piece hpiece => ?_)
  refine .finishThen (Estree.fits_unruled hform) fun id stop => .pure (by simp) ?_
  simp [IsSpan, Estree.supplied_must, Node.part?_ofParts, he, hpiece]

lemma template_builds {form spanForm : Form} {substitution : Parse Node}
    (hform : form = .templateExpression ∨ form = .templateLiteralType)
    (hspan : Estree.isRuled (.form spanForm) = false)
    (h : Builds text R Anywhere substitution Usable) :
    Builds text R (At .templateHead) (template form spanForm substitution) Usable := by
  refine ⟨fun m => ?_⟩
  refine .start (.sub (literal_usable [.templateHead]) fun head hhead => .look fun spansStart => ?_)
  refine .sub (templateSpan_builds hspan h) fun first hfirst => ?_
  refine .bind (iterate_goes (fun x => head :: x.1.reverse) (fun x => ∀ n ∈ x.1, IsSpan n)
    (by simpa using hfirst) fun x hx => ?_) fun spans hspans => ?_
  · refine .ite (fun _ => ?_) fun _ => .pure (by simp) (by simp)
    refine .sub (templateSpan_builds hspan h) fun y hy => .pure (by simp) ?_
    simpa [hy] using hx
  · refine .listFrom fun span => .buildAs ?_ ?_
    · exact Estree.fits_template hform hhead (by simpa using hspans)
    · rcases hform with rfl | rfl <;> decide

/-! ### Attributes of imports -/

section

variable [Reaches text R]

instance importAttribute_builds :
    Builds text R Anywhere importAttribute fun n => Usable n ∧ IsAttribute n := by
  refine ⟨fun m => ?_⟩
  refine .start (.sub exportedName_builds fun name hname => .expect_ ?_)
  refine .sub (reach_builds _) fun value hvalue => ?_
  refine .finish (Estree.fits_of_enough ?_) (fun id stop => ⟨usable_of_form rfl (by decide), ?_⟩)
  · unfold Estree.enough Estree.wants
    simp_all
  · simp [IsAttribute, Estree.supplied_must, Node.part?_ofParts, hname, hvalue]

instance importAttributes_builds (asKey : Bool) :
    Builds text R (fun σ => σ.kind ≠ .endOfFile) (importAttributes asKey) IsAttributes := by
  refine ⟨fun m => ?_⟩
  refine .start (.look fun opening => .next (.onlyIf (fun _ => expecting_builds _) ?_))
  refine .sub (enclosedList_builds importAttribute_builds) fun elements helements => ?_
  refine .finish (Estree.fits_importAttributes (by simpa using fun n hn => (helements n hn).2))
    fun id stop => ⟨usable_of_form rfl (by decide), ?_⟩
  simpa [Node.partsOf_ofParts] using fun n hn => (helements n hn).1

end

end EstreeLint.Grammar
