import EstreeLint.Proofs.Layout.Expressions
import EstreeLint.Proofs.Shapes.Classes
import EstreeLint.Proofs.Sites.Elements

/-!
What the rules for expressions and elements shape.
-/

namespace EstreeLint.Grammar

open Parse

set_option synthInstance.maxSize 20000

variable {text : Source} {R : Runner} {q : Nat} {Γ : Prop} [ShapesGoals text R]

instance {left : Node} [Behind Γ text q left] : Shapes Γ text R q (commaOperand q left) := by
  unfold commaOperand
  infer_instance

instance : Shapes Γ text R q expression := by
  have h {Δ : Prop} : Shapes Δ text R q (pos >>= fun start =>
      reach (.assignment true) >>= fun e => iterate (commaOperand start) e) :=
    .start fun _ => inferInstance
  exact inferInstanceAs (Shapes Γ text R q (withContext _ _ _))

instance : Shapes Γ text R q fullExpression := by unfold fullExpression; infer_instance

/-! ### Lists -/

instance : Shapes Γ text R q listElement := by
  refine .start fun q => .bind inferInstance fun k => ?_
  split <;> infer_instance

instance : Shapes Γ text R q argumentList := by unfold argumentList; infer_instance

instance : Shapes Γ text R q arrayLiteral := .start fun _ => inferInstance

instance : Shapes Γ text R q objectElement := by
  refine .start fun q => .pass fun spread => .ite (fun _ => inferInstance) fun _ => ?_
  refine .bind inferInstance fun mods => .pass fun b => .ite (fun _ => inferInstance) fun _ => ?_
  refine .bind inferInstance fun asterisk => .named fun startsWithName name hname => ?_
  refine .bind inferInstance fun question => .pass fun opens =>
    .ite (fun _ => inferInstance) fun _ => ?_
  refine .pass fun colon => .ite (fun h => ?_) fun _ => inferInstance
  exact .given (hname (Bool.and_eq_true_iff.1 h).1) inferInstance

instance : Shapes Γ text R q objectLiteral := .start fun _ => inferInstance

/-! ### Primary expressions -/

instance : Shapes Γ text R q parenthesized := .start fun _ => inferInstance

omit [ShapesGoals text R] in
instance : Shapes Γ text R q asyncModifier := by unfold asyncModifier; infer_instance

instance : Shapes Γ text R q functionExpression := by
  refine .start fun q => .bind inferInstance fun mods => .pass fun _ => ?_
  refine .bind inferInstance fun asterisk => .made inferInstance (P := fun x => SignatureParts x.2)
    (.inContext ?_) fun x => .use fun hparts => ?_
  · have hlast (name : Option Node) : Made R (signature (some <$> block) >>= fun parts =>
        pure (name, parts)) fun x => SignatureParts x.2 :=
      made_signature.bind fun parts hparts => .pure hparts
    exact .after fun named => .ite (.after hlast) (.after hlast)
  · obtain ⟨name, parts⟩ := x
    refine .known (Δ := From text q name ∧ From text q parts ∧ From text q asterisk ∧
      From text q mods ∧ Γ) (finish_signature hparts) fun h => ⟨h.2.1.1, h.2.1.2, h.2.2⟩

instance : Shapes Γ text R q templateExpression :=
  template_shapes fun q => inferInstanceAs (Shapes Γ text R q fullExpression)

instance : Shapes Γ text R q anyTemplate := by unfold anyTemplate; infer_instance

section Links

variable {e tag questionDot : Node} {dot : Option Node} {args : Option NodeList}

instance [Behind Γ text q tag] [Behind Γ text q dot] [Behind Γ text q args] :
    Shapes Γ text R q (taggedTemplate q tag dot args) := by
  unfold taggedTemplate
  infer_instance

omit [ShapesGoals text R] in
instance [Behind Γ text q e] [Behind Γ text q dot] :
    Shapes Γ text R q (propertyAccess q e dot) := by
  unfold propertyAccess
  infer_instance

instance [Behind Γ text q e] [Behind Γ text q dot] : Shapes Γ text R q (elementAccess q e dot) := by
  unfold elementAccess
  dsimp only
  infer_instance

instance [Behind Γ text q e] [Behind Γ text q questionDot] :
    Shapes Γ text R q (optionalLink q e questionDot) := by
  unfold optionalLink
  infer_instance

instance [Behind Γ text q e] : Shapes Γ text R q (trailingLink q e) := by
  refine .pass fun atPiece => .ite (fun _ => ?_) fun _ => ?_
  · refine .ofSplit e fun tag args hsplit => ?_
    rw [hsplit]
    infer_instance
  · exact .ofOption inferInstance inferInstance fun args => inferInstance

instance [Behind Γ text q e] : Shapes Γ text R q (plainLink q e) := by
  unfold plainLink
  infer_instance

instance {allowOptional : Bool} [Behind Γ text q e] :
    Shapes Γ text R q (memberLink q allowOptional e) := by
  unfold memberLink
  infer_instance

instance {allowOptional : Bool} [Behind Γ text q e] :
    Shapes Γ text R q (memberLinks q allowOptional e) := by
  unfold memberLinks
  infer_instance

instance : Shapes Γ text R q newCallee := .start fun _ => inferInstance

end Links

instance : Shapes Γ text R q newExpression := by
  refine .start fun q => .pass fun _ => .pass fun _ => .ite (fun _ => inferInstance) fun _ => ?_
  refine .bind inferInstance fun callee => ?_
  refine .ofSplit callee fun callee args hsplit => ?_
  rw [hsplit]
  dsimp only
  infer_instance

omit [ShapesGoals text R] in
instance : Shapes Γ text R q noExpression := by unfold noExpression; infer_instance

instance : Shapes Γ text R q decoratedClass := .start fun _ => inferInstance

instance : Shapes Γ text R q primary := by
  refine .bind inferInstance fun k => ?_
  split
  all_goals first
    | infer_instance
    | exact .start fun q => inferInstance

/-! ### Calls -/

omit [ShapesGoals text R] in
instance : Shapes Γ text R q superExpression := .start fun _ => inferInstance

section Calls

variable {e callee questionDot : Node} {dot : Option Node} {args : Option NodeList}

instance [Behind Γ text q callee] [Behind Γ text q dot] [Behind Γ text q args] :
    Shapes Γ text R q (callRest q callee dot args) := by
  unfold callRest
  infer_instance

instance [Behind Γ text q e] [Behind Γ text q questionDot] :
    Shapes Γ text R q (optionalCall q e questionDot) := by
  unfold optionalCall
  infer_instance

instance [Behind Γ text q e] : Shapes Γ text R q (callLink q e) := by
  refine .pass fun b => .ite (fun _ => inferInstance) fun _ => .pass fun b => .ite (fun _ => ?_)
    fun _ => inferInstance
  refine .ofSplit e fun callee args hsplit => ?_
  rw [hsplit]
  infer_instance

instance {x : Node × Bool} [h : Behind Γ text q x] : Shapes Γ text R q (linksAndCall q x) := by
  obtain ⟨e, more⟩ := x
  refine .known (Δ := From text q e ∧ Γ) ?_ fun hΓ => ⟨(h.holds hΓ).1, hΓ⟩
  exact .ite (fun _ => inferInstance) fun _ => inferInstance

instance [Behind Γ text q e] : Shapes Γ text R q (callLinks q e) := by
  unfold callLinks
  infer_instance

end Calls

instance : Shapes Γ text R q leftHandSide := by
  refine .start fun q => ?_
  extract_lets member
  have hmember {Δ : Prop} : Shapes Δ text R q member := by unfold member; infer_instance
  clear_value member
  refine .pass fun k => ?_
  split
  · refine .pass fun k => ?_
    split <;> infer_instance
  · infer_instance
  · infer_instance

/-! ### Elements -/

section Elements

variable {name e opening : Node} {inExpression : Bool}

omit [ShapesGoals text R] in
instance : Shapes Γ text R q hyphenatedName := by unfold hyphenatedName; infer_instance

omit [ShapesGoals text R] in
lemma made_hyphenatedName : Made R hyphenatedName (Demand.Met .token) :=
  .after fun _ => .identifierName

omit [ShapesGoals text R] in
/-- A name behind a colon belongs to a namespace that is a name itself. -/
lemma namespacedRest_shapes [hname : Behind Γ text q name] (hn : Demand.Met .token name) :
    Shapes Γ text R q (namespacedRest q name) := by
  refine .given hn (.pass fun _ => .made inferInstance made_hyphenatedName fun n => ?_)
  infer_instance

omit [ShapesGoals text R] in
lemma made_namespacedRest {start : Nat} :
    Made R (namespacedRest start name) (Demand.Met .tagName) :=
  .after fun _ => .after fun _ => fun _ => .spaced rfl

omit [ShapesGoals text R] in
instance [Behind Γ text q e] : Shapes Γ text R q (dottedTag q e) := by
  unfold dottedTag
  infer_instance

omit [ShapesGoals text R] in
lemma made_dottedTag {start : Nat} (he : Demand.Met .tagName e) :
    Made R (dottedTag start e) fun o => ∀ n ∈ o, Demand.Met .tagName n := by
  refine .after fun b => .ite ?_ .nothing
  refine Made.identifierName.bind fun name hname => .given fun s => ?_
  refine .dotted rfl fun c hc => ?_
  have hnames : c = e.withRole .expression ∨ c = name.withRole .name := by
    have hc := mem_children_ofParts hc
    simpa [Part.bare, Part.role?] using hc
  rcases hnames with rfl | rfl
  · exact (Demand.met_withRole (d := .tagName) _).2 he
  · obtain ⟨k, hk⟩ := (Demand.met_withRole (d := .token) .name).2 hname
    exact .token hk

omit [ShapesGoals text R] in
instance : Shapes Γ text R q tagName := by
  refine .start fun q => .pass fun _ => .pass fun b => ?_
  have hrest (first : Node) (hfirst : Demand.Met .token first) :
      Shapes (Demand.Met .token first ∧ From text q first ∧ Γ) text R q
        (isAt .colon >>= fun colon => if colon then namespacedRest q first
          else iterate (dottedTag q) first) :=
    .pass fun _ => .ite (fun _ => namespacedRest_shapes hfirst) fun _ => inferInstance
  refine .ite (fun _ => ?_) fun _ => ?_
  · exact .made inferInstance .tokenNode fun first => .use fun hfirst => hrest first hfirst
  · exact .made inferInstance .identifierName fun first => .use fun hfirst => hrest first hfirst

omit [ShapesGoals text R] in
lemma made_tagName : Made R tagName (Demand.Met .tagName) := by
  have hrest {start : Nat} (first : Node) (hfirst : Demand.Met .token first) :
      Made R (isAt .colon >>= fun colon => if colon then namespacedRest start first
          else iterate (dottedTag start) first) (Demand.Met .tagName) := by
    obtain ⟨k, hk⟩ := hfirst
    exact .after fun b =>
      .ite made_namespacedRest (.iterate (.token hk) fun e he => made_dottedTag he)
  refine .after fun start => .after fun _ => .after fun b => .ite ?_ ?_
  · exact Made.tokenNode.bind hrest
  · exact Made.identifierName.bind hrest

instance : Shapes Γ text R q (embedded inExpression) := by
  refine .start fun q => .pass fun _ => .pass fun b => ?_
  refine .ite (fun _ => .ofPair inferInstance fun dots e => inferInstance) fun _ => ?_
  exact .bind inferInstance fun dots => .bind inferInstance fun e =>
    .ofPair inferInstance fun dots e => inferInstance

instance : Shapes Γ text R q attributeValue := by
  refine .pass fun _ => .pass fun k => ?_
  split <;> infer_instance

instance : Shapes Γ text R q spreadAttribute := .start fun _ => inferInstance

instance [Behind Γ text q name] [Meets Γ .tagName [name]] :
    Shapes Γ text R q (attributeRest q name) := by
  unfold attributeRest
  infer_instance

instance : Shapes Γ text R q jsxAttribute := by
  refine .start fun q => .pass fun b => .ite (fun _ => inferInstance) fun _ => ?_
  refine .pass fun b => .ite (fun _ => inferInstance) fun _ => ?_
  refine .made inferInstance made_hyphenatedName fun plain => .use fun hplain => ?_
  refine .pass fun b => .ite (fun _ => ?_) fun _ => ?_
  · refine .made (namespacedRest_shapes hplain) made_namespacedRest fun name => ?_
    infer_instance
  · have hname : Demand.Met .tagName plain := by
      obtain ⟨k, hk⟩ := hplain
      exact .token hk
    refine .given hname ?_
    infer_instance

instance : Shapes Γ text R q jsxAttributes := .start fun _ => inferInstance

instance : Shapes Γ text R q (openingTag inExpression) := by
  refine .start fun q => .pass fun _ => .pass fun b => .ite (fun _ => inferInstance) fun _ => ?_
  refine .made inferInstance made_tagName fun name => ?_
  dsimp only
  infer_instance

instance : Shapes Γ text R q (closingTag inExpression) := by
  refine .start fun q => .pass fun b => .ite (fun _ => ?_) fun _ => inferInstance
  refine .pass fun b => .ite (fun _ => inferInstance) fun _ => ?_
  exact .made inferInstance made_tagName fun name => inferInstance

omit [ShapesGoals text R] in
instance : Shapes Γ text R q textChild := .start fun _ => inferInstance

instance : Shapes Γ text R q (child opening) := by
  refine .pass fun k => ?_
  split <;> infer_instance

instance : Shapes Γ text R q (element inExpression) := by
  refine .start fun q => .bind inferInstance fun opening => ?_
  unfold opened?
  split
  · infer_instance
  · rename_i form hform
    split at hform <;> cases hform <;> (unfold elementRest; infer_instance)

end Elements

/-! ### Operators -/

instance : Shapes Γ text R q updateExpression := by
  refine .start fun q => .pass fun operator => ?_
  infer_instance

section Operators

variable {left : Node} {above : Nat} {returnType : Bool}

instance : Shapes Γ text R q typeAssertion := .start fun _ => inferInstance

instance : Shapes Γ text R q simpleUnary := by
  refine .pass fun operator => ?_
  unfold applied
  dsimp only [List.cons_append, List.nil_append]
  split
  case h_9 =>
    exact .pass fun b => .ite (fun _ => .start fun _ => inferInstance) fun _ => inferInstance
  all_goals first
    | infer_instance
    | exact .start fun _ => inferInstance

instance [Behind Γ text q left] : Shapes Γ text R q (operatorLink above q left) := by
  refine .pass fun operator => .ite (fun _ => inferInstance) fun _ => .pass fun noIn => ?_
  refine .ite (fun _ => inferInstance) fun _ => .ite (fun _ => ?_) fun _ => inferInstance
  refine .pass fun b => .ite (fun _ => inferInstance) fun _ => .pass fun _ => ?_
  refine .bind inferInstance fun type => ?_
  split <;> infer_instance

instance : Shapes Γ text R q (binary above) := .start fun _ => inferInstance

/-! ### Arrow functions -/

instance {async : Bool} : Shapes Γ text R q (arrowBody async returnType) := by
  unfold arrowBody
  dsimp only
  infer_instance

instance {sure : Bool} : Shapes Γ text R q (parenthesizedArrow sure returnType) := by
  refine .start fun q => .bind inferInstance fun mods => ?_
  refine .pass fun before => ?_
  extract_lets clean
  have : Peeks clean := by unfold clean; infer_instance
  clear_value clean
  refine .ofPair (.inContext (.bind inferInstance fun types => .pass fun b => ?_))
    fun types params => ?_
  · exact .choose inferInstance inferInstance fun params => inferInstance
  cases params with
  | none => infer_instance
  | some params =>
    refine .known (Δ := From text q types ∧ From text q params ∧ From text q mods ∧ Γ) ?_
      fun h => ⟨h.1, h.2.1 params rfl, h.2.2⟩
    refine .pass fun b => .ite (fun _ => inferInstance) fun _ => .pass fun colon => ?_
    refine .bind inferInstance fun type => .pass fun b => .ite (fun _ => inferInstance) fun _ => ?_
    refine .pass fun last => .ite (fun _ => inferInstance) fun _ => ?_
    refine .bind inferInstance fun arrow => ?_
    dsimp only
    infer_instance

instance : Shapes Γ text R q (parenthesizedArrow? returnType) := by
  refine .pass fun guess => ?_
  cases guess <;> infer_instance

instance {name : Node} {mods : Option NodeList} [hn : Behind Γ text q name] [Behind Γ text q mods] :
    Shapes Γ text R q (simpleArrow q name mods returnType) := by
  have hname : Behind Γ text name.pos name :=
    ⟨fun hΓ => ⟨⟨(hn.holds hΓ).1.shaped, Nat.le_refl _⟩, (hn.holds hΓ).2⟩⟩
  exact .bind (.node_at fun hΓ => (hn.holds hΓ).1.pos) fun param => inferInstance

instance : Shapes Γ text R q (asyncArrow? returnType) := by
  refine .pass fun b => .ite (fun _ => ?_) fun _ => inferInstance
  exact .start fun q => inferInstance

/-! ### Assignments -/

instance : Shapes Γ text R q yieldExpression := by
  refine .start fun q => .pass fun _ => .pass fun b => ?_
  infer_instance

instance [Behind Γ text q left] : Shapes Γ text R q (conditionalRest q left returnType) := by
  unfold conditionalRest
  infer_instance

instance : Shapes Γ text R q (assignmentRest returnType) := by
  refine .start fun q => .bind inferInstance fun left => ?_
  infer_instance

instance : Shapes Γ text R q (assignment returnType) := by
  refine .ofNested inferInstance (.pass fun b => .ite (fun _ => inferInstance) fun _ => ?_)
  refine .ofOption inferInstance ?_ fun arrow => inferInstance
  exact .ofOption inferInstance inferInstance fun arrow => inferInstance

end Operators

end EstreeLint.Grammar
