import EstreeLint.Grammar.Class
import EstreeLint.Proofs.Grammar.Elements
import EstreeLint.Proofs.Grammar.Operations
import EstreeLint.Proofs.Layout.Types

/-!
What the rules for classes, expressions and elements lay out.
-/

namespace EstreeLint.Grammar

open Parse

variable {β : Type} {R : Runner} {m : Place} {ns : List Node} {out : β → List Node}

/-! ### Type arguments that are taken apart -/

/-- A name and the arguments it is split from are parts of one node, in their order. -/
lemma split_sublist {arena : Array Node} {e name : Node} {args : Option NodeList}
    (h : Live arena e) (hsplit : splitTypeArguments? e = some (name, args)) :
    (name :: nodesIn args).Sublist e.children := by
  unfold splitTypeArguments? at hsplit
  split at hsplit
  · next hform =>
    obtain ⟨first, rest, hchildren, hfirst, hrest⟩ := h.applies hform
    have hname : e.part? .typeName = some first := by simp [Tree.part?, hchildren, hfirst]
    have hparts : e.partsOf .typeArgument = rest := by
      simpa [Tree.partsOf, hchildren, hfirst] using hrest
    rw [hname, Option.map_some, Option.some.injEq, Prod.mk.injEq] at hsplit
    obtain ⟨rfl, rfl⟩ := hsplit
    rw [hchildren]
    refine .cons_cons _ ?_
    cases hlist : e.label.lists.lookup .typeArgument <;> simp [Tree.list?, hlist, hparts]
  · cases hsplit

namespace Steps

/-- An expression may be taken apart into a name and its type arguments. -/
lemma split {e : Node} {p : Parse β}
    (hsome : ∀ name args, splitTypeArguments? e = some (name, args) →
      Steps R m (name :: nodesIn args) p out)
    (hnone : splitTypeArguments? e = none → Steps R m [e] p out) : Steps R m [e] p out := by
  intro s hs hl
  cases hsplit : splitTypeArguments? e with
  | none => exact hnone hsplit s hs hl
  | some x =>
    have hinline := hl.inline
    rw [List.append_nil] at hinline
    cases hl with
    | cons _ hlive _ _ =>
      exact hsome x.1 x.2 hsplit s hs (hinline.sublist (split_sublist hlive hsplit))

/-- A rule that goes on with an expression, or with the name and the arguments it is split into. -/
lemma splitOr {e : Node} {f : Node × Option NodeList → Parse β}
    (hf : ∀ name args, Steps R m (name :: nodesIn args) (f (name, args)) out) :
    Steps R m [e] (f ((splitTypeArguments? e).getD (e, none))) out := by
  refine split (fun name args hsplit => ?_) fun hsplit => ?_
  · rw [hsplit]
    exact hf name args
  · rw [hsplit]
    exact hf e none

/-- A name with its type arguments is a node that can be taken apart. -/
lemma applied {name : Node} (args : Option NodeList) :
    Steps R m (name :: nodesIn args)
      (Parse.finish .expressionWithTypeArguments m.pos
        [.one .typeName name, .optional .typeArgument args]) nodesIn := by
  refine nodeHere (fun _ => ?_)
  refine ⟨name.withRole .typeName, (nodesIn args).map (·.withRole .typeArgument), ?_, ?_, ?_⟩
  · cases args <;> simp [Part.nodes, Part.optional]
  · simp
  · simp

end Steps

variable [LaysGoals R]

/-! ### Classes -/

instance : Lays R heritageType := by
  refine .start fun _ => .sub fun e => .split (fun name args hsplit => ?_) fun hsplit => ?_
  · rw [hsplit]
    exact .pureThen (.applied _)
  · rw [hsplit]
    refine .askIf (.sub fun args => .pureThen ?_) (.pureThen (.applied none))
    exact .applied (some args)

instance : Lays R heritageClause := by
  refine .start fun _ => .pass fun opening => .pass fun _ => .pass fun start => ?_
  exact .sub fun types => .listFrom fun _ => .finish

instance : Lays R heritageClauses := by
  refine .of fun _ => .pass fun start => .part (.repeated (.of fun _ => ?_)) fun clauses => ?_
  · exact .askIf (.sub fun n => .pure) .pure
  · simpa using Steps.lastFrom?

lemma classLike_steps {form : Form} {mods : Option NodeList}
    (hform : form ≠ .expressionWithTypeArguments := by decide) (hn : nodesIn mods = ns := by simp) :
    Steps R m ns (classLike form m.pos mods) nodesIn := by
  subst hn
  refine .pass fun _ => .pass fun named => .perhaps fun name => .sub fun typeParams => ?_
  refine .sub fun heritage => .pass fun _ => .sub fun members => .pass fun _ => ?_
  exact .finish hform

/-! ### Lists -/

instance : Lays R expression := by
  refine .inContext (.start fun _ => .sub fun first => .iterate (fun left => [left]) fun left => ?_)
  exact .askIf (.sub fun operator => .sub fun right => .bind .finish fun n => .pure) .pure

instance : Lays R fullExpression := inferInstanceAs (Lays R (withContext ..))

instance : Lays R listElement := by
  refine .start fun _ => .pass fun k => ?_
  split
  · exact .pass fun _ => .sub fun e => .finish
  · exact .empty
  · exact .last

instance : Lays R argumentList := inferInstanceAs (Lays R (enclosedList ..))

instance : Lays R arrayLiteral := .start fun _ => .sub fun elements => .finish

instance : Lays R objectElement := by
  refine .start fun _ => .askIf (.sub fun e => .finish) (.sub fun mods => .askIf accessor_steps ?_)
  refine .sub fun asterisk => .pass fun startsWithName => .sub fun name => .sub fun question => ?_
  refine .pass fun b => .ite methodRest_steps (.pass fun b => ?_)
  -- what stands before the name belongs to no node
  refine .forget [name] (.ite (.sub fun value => .finish) (.pass fun _ => ?_))
  exact .sub fun value => .finish

instance : Lays R objectLiteral := .start fun _ => .sub fun elements => .finish

/-! ### Primary expressions -/

instance : Lays R parenthesized :=
  .start fun _ => .pass fun _ => .sub fun e => .pass fun _ => .finish

omit [LaysGoals R] in
instance : Lays R asyncModifier := by
  refine .of fun _ => .pass fun start => .sub fun word => ?_
  simpa using Steps.lastFrom?

instance : Lays R functionExpression := by
  refine .start fun _ => .sub fun mods => .pass fun _ => .sub fun asterisk => ?_
  refine .part (.inContext (.of fun _ => ?_)) fun x => .finish
  exact .pass fun b => .perhaps fun name => .sub fun parts => .pure

instance : Lays R templateExpression := template_lays (by decide) (by decide)

instance : Lays R anyTemplate := .lookIf inferInstance inferInstance

/-! ### Members -/

section Members

variable {e : Node} {questionDot : Option Node}

lemma taggedTemplate_steps {tag : Node} {args : Option NodeList}
    (hn : tag :: nodesIn args = ns := by simp) :
    Steps R m ns (taggedTemplate m.pos tag questionDot args) nodesIn := by
  subst hn
  exact .sub fun piece => .finish

omit [LaysGoals R] in
lemma propertyAccess_steps (hn : e :: questionDot.toList = ns := by simp) :
    Steps R m ns (propertyAccess m.pos e questionDot) nodesIn := by
  subst hn
  exact .sub fun name => .finish

lemma elementAccess_steps (hn : e :: questionDot.toList = ns := by simp) :
    Steps R m ns (elementAccess m.pos e questionDot) nodesIn := by
  subst hn
  refine .askIf (.pass fun _ => .sub fun argument => .pass fun _ => .finish) ?_
  exact .sub fun argument => .pass fun _ => .finish

/-- A link that is made of an expression, or nothing. -/
abbrev Links (R : Runner) (m : Place) (ns : List Node) (e : Node) (p : Parse (Option Node)) :
    Prop :=
  Steps R m ns p fun o => [o.getD e]

lemma optionalLink_steps {dot : Node} : Links R m [e, dot] e (optionalLink m.pos e dot) := by
  refine .askIf (.bind propertyAccess_steps fun n => .pure) ?_
  refine .askIf (.bind elementAccess_steps fun n => .pure) (.forget [e] ?_)
  exact .askIf (.bind taggedTemplate_steps fun n => .pure) .pure

lemma trailingLink_steps : Links R m [e] e (trailingLink m.pos e) := by
  refine .askIf ?_ (.sub fun o => ?_)
  · refine .splitOr (f := fun x => taggedTemplate m.pos x.1 none x.2 >>= fun n => pure (some n)) ?_
    exact fun name args => .bind taggedTemplate_steps fun n => .pure
  · cases o with
    | none => exact .pure
    | some args => exact .bind (.applied (some args)) fun n => .pure

lemma plainLink_steps : Links R m [e] e (plainLink m.pos e) := by
  refine .askIf (.bind propertyAccess_steps fun n => .pure) ?_
  refine .askIf (.pass fun _ => .bind .finish fun n => .pure) ?_
  refine .pass fun b => .ite ?_ trailingLink_steps
  exact .askIf (.bind elementAccess_steps fun n => .pure) trailingLink_steps

lemma memberLink_steps {allowOptional : Bool} :
    Links R m [e] e (memberLink m.pos allowOptional e) :=
  .pass fun _ => .ite (.sub fun _ => optionalLink_steps) plainLink_steps

lemma memberLinks_steps {allowOptional : Bool} (hn : [e] = ns := by simp) :
    Steps R m ns (memberLinks m.pos allowOptional e) nodesIn :=
  .iterate _ (fun _ => memberLink_steps) hn

end Members

instance : Lays R newCallee := .start fun _ => .sub fun e => memberLinks_steps

instance : Lays R newExpression := by
  refine .start fun _ => .pass fun _ => .askIf (.sub fun name => .finish) (.sub fun callee => ?_)
  refine .split (fun name args hsplit => ?_) fun hsplit => ?_
  · rw [hsplit]
    exact .pass fun b => .onlyIf (.pass fun b => .perhaps fun args => .finish)
  · rw [hsplit]
    exact .pass fun b => .onlyIf (.pass fun b => .perhaps fun args => .finish)

omit [LaysGoals R] in
instance : Lays R noExpression := .of fun _ => .pass fun _ => .last

instance : Lays R decoratedClass := by
  refine .start fun _ => .sub fun mods => .askIf classLike_steps ?_
  exact .forget [] .last

instance : Lays R primary := by
  refine .look fun k => ?_
  split
  all_goals first
    | exact inferInstance
    | exact .lookIf inferInstance inferInstance
    | exact .start fun _ => classLike_steps
    | exact .of fun _ => .pass fun _ => .last

/-! ### Calls -/

omit [LaysGoals R] in
instance : Lays R superExpression := by
  refine .start fun _ => .sub fun e => .askIf .pure (.pass fun _ => .sub fun name => .finish)

section Calls

variable {e : Node}

lemma callRest_steps {callee : Node} {questionDot : Option Node} {typeArgs : Option NodeList}
    (hn : callee :: questionDot.toList ++ nodesIn typeArgs = ns := by simp) :
    Steps R m ns (callRest m.pos callee questionDot typeArgs) nodesIn := by
  subst hn
  exact .sub fun args => .finish

lemma optionalCall_steps {dot : Node} : Steps R m [e, dot] (optionalCall m.pos e dot) nodesIn := by
  refine .sub fun typeArgs => .askIf ?_ (.pass fun b => .ite ?_ ?_)
  · exact .forget (e :: nodesIn typeArgs) (.bind taggedTemplate_steps fun n => .pure)
  · exact .bind callRest_steps fun n => .pure
  · refine .forget [e, dot] (.pass fun _ => .sub fun name => .bind .finish fun n => ?_)
    exact .pure

lemma callLink_steps : Steps R m [e] (callLink m.pos e) nodesIn := by
  refine .askIf (.sub fun dot => optionalCall_steps) (.askIf ?_ .pure)
  refine .splitOr (f := fun x => callRest m.pos x.1 none x.2 >>= fun n => pure (n, true)) ?_
  exact fun name args => .bind callRest_steps fun n => .pure

lemma callLinks_steps : Steps R m [e] (callLinks m.pos e) nodesIn := by
  refine .bind (.iterate (fun x => [x.1]) fun x => .ite ?_ .pure) fun x => .pure
  exact .bind memberLinks_steps fun e => .bind callLink_steps fun x => .pure

end Calls

instance : Lays R leftHandSide := by
  have member (m : Place) :
      Steps R m [] (primary >>= memberLinks m.pos true) fun e => [e] :=
    .sub fun e => memberLinks_steps
  refine .start fun m => .pass fun k => ?_
  split
  · refine .pass fun next => ?_
    split
    · exact .sub fun e => callLinks_steps
    · exact .sub fun e => callLinks_steps
    · exact .pass fun _ => .pass fun _ => .sub fun name => .bind .finish fun e => callLinks_steps
    · exact .bind (member m) fun e => callLinks_steps
  · exact .sub fun e => callLinks_steps
  · exact .bind (member m) fun e => callLinks_steps

/-! ### Operators -/

instance : Lays R updateExpression := by
  refine .start fun _ => .pass fun operator => .ite (.pass fun _ => .sub fun operand => .finish) ?_
  refine .askIf .last (.sub fun operand => .askIf ?_ .pure)
  exact .pass fun operator => .pass fun _ => .finish

lemma applied_lays {form : Form} {parts : List Part} {r : Role}
    (hform : form ≠ .expressionWithTypeArguments := by decide)
    (hparts : parts.flatMap Part.bare = [] := by simp) : Lays R (applied form parts r) :=
  .start fun _ => .pass fun _ => .sub fun e => .finish hform (by simp_all)

instance : Lays R typeAssertion :=
  .start fun _ => .pass fun _ => .sub fun type => .pass fun _ => .sub fun e => .finish

instance : Lays R simpleUnary := by
  refine .look fun k => ?_
  split
  iterate 7 exact applied_lays
  · exact .lookIf inferInstance inferInstance
  · exact .lookIf applied_lays inferInstance
  · exact inferInstance

lemma operatorLink_steps {above : Nat} {left : Node} :
    Steps R m [left] (operatorLink above m.pos left) fun o => [o.getD left] := by
  refine .pass fun operator => .ite .pure (.pass fun b => .ite .pure (.ite ?_ ?_))
  · refine .askIf .pure (.pass fun _ => .sub fun type => .bind (.finish ?_) fun n => .pure)
    split <;> decide
  · exact .sub fun mark => .sub fun right => .bind .finish fun n => .pure

instance (above : Nat) : Lays R (binary above) :=
  .start fun _ => .sub fun left => .iterate _ fun _ => operatorLink_steps

/-! ### Arrow functions -/

instance (async returnType : Bool) : Lays R (arrowBody async returnType) :=
  .lookIf inferInstance inferInstance

instance (sure returnTypeAllowed : Bool) : Lays R (parenthesizedArrow sure returnTypeAllowed) := by
  refine .start fun _ => .sub fun mods => .pass fun before => ?_
  refine .part (.inContext (.of fun _ => ?_)) ?_
  · exact .sub fun typeParams => .pass fun b => .perhaps fun params => .pure
  rintro ⟨typeParams, _ | params⟩
  · exact .forget [] .pure
  refine .pass fun clean => .ite (.forget [] .pure) (.pass fun hasColon => .sub fun type => ?_)
  refine .pass fun clean => .ite (.forget [] .pure) (.pass fun last => .ite (.forget [] .pure) ?_)
  refine .sub fun arrow => .onlyIf (.choose fun body => .pass fun b => .ite (.forget [] .pure) ?_)
  exact .bind .finish fun n => .pure

instance (returnTypeAllowed : Bool) : Lays R (parenthesizedArrow? returnTypeAllowed) := by
  refine .look fun guess => ?_
  cases guess with
  | no => exact .pure
  | yes => exact .tried inferInstance
  | maybe => exact .triedUnlessRuledOut inferInstance

lemma simpleArrow_steps {name : Node} {mods : Option NodeList} {returnType : Bool}
    (hn : nodesIn mods ++ [name] = ns := by simp) :
    Steps R m ns (simpleArrow m.pos name mods returnType) nodesIn := by
  subst hn
  exact .wrap fun param => .sub fun arrow => .sub fun body => .finish

instance (returnType : Bool) : Lays R (asyncArrow? returnType) := by
  refine .lookIf (.start fun _ => ?_) .pure
  exact .sub fun mods => .sub fun name => .bind simpleArrow_steps fun n => .pure

/-! ### Assignments -/

instance : Lays R yieldExpression := by
  refine .start fun _ => .pass fun _ => .askIf ?_ .finish
  exact .sub fun asterisk => .sub fun e => .finish

lemma conditionalRest_steps {condition : Node} {returnType : Bool} :
    Steps R m [condition] (conditionalRest m.pos condition returnType) nodesIn := by
  refine .askIf (.sub fun whenTrue => .pass fun b => .choose fun whenFalse => .finish) .pure

instance (returnType : Bool) : Lays R (assignmentRest returnType) := by
  refine .start fun _ => .sub fun left => .pass fun b => .ite simpleArrow_steps (.ite ?_ ?_)
  · refine .pass fun k => .ite ?_ conditionalRest_steps
    exact .sub fun operator => .sub fun right => .finish
  · exact conditionalRest_steps

instance (returnType : Bool) : Lays R (assignment returnType) := by
  refine .nest inferInstance (.of fun _ => .askIf .last (.sub fun arrow => ?_))
  cases arrow with
  | some n => exact .pure
  | none =>
    refine .sub fun arrow => ?_
    cases arrow with
    | some n => exact .pure
    | none => exact .last

/-! ### Elements -/

instance : Passes nextText := by unfold nextText; infer_instance

instance (k : TokenKind) (inExpression : Bool) : Passes (expectClosing k inExpression) := by
  unfold expectClosing
  dsimp only
  infer_instance

omit [LaysGoals R] in
instance : Lays R hyphenatedName := .of fun _ => .pass fun _ => .last

omit [LaysGoals R] in
lemma namespacedRest_steps {name : Node} :
    Steps R m [name] (namespacedRest m.pos name) nodesIn :=
  .pass fun _ => .sub fun name => .finish

omit [LaysGoals R] in
instance : Lays R tagName := by
  refine .start fun _ => .pass fun _ => .pass fun b => .choose fun first => ?_
  refine .askIf namespacedRest_steps (.iterate (fun e => [e]) fun e => ?_)
  exact .askIf (.sub fun name => .bind .finish fun n => .pure) .pure

instance (inExpression : Bool) : Lays R (embedded inExpression) := by
  refine .start fun _ => .pass fun _ => .askIf (.pureThen (.pass fun _ => .finish)) ?_
  exact .sub fun dots => .sub fun e => .pureThen (.pass fun _ => .finish)

instance : Lays R attributeValue := by
  refine .of fun _ => .pass fun _ => .pass fun k => ?_
  split
  · exact .sub fun n => .pure
  · exact .sub fun n => .pure
  · exact .sub fun n => .pure
  · exact .pass fun _ => .pure

instance : Lays R spreadAttribute :=
  .start fun _ => .pass fun _ => .pass fun _ => .sub fun e => .pass fun _ => .finish

lemma attributeRest_steps {name : Node} : Steps R m [name] (attributeRest m.pos name) nodesIn :=
  .pass fun b => .perhaps fun value => .finish

instance : Lays R jsxAttribute := by
  refine .start fun _ => .askIf (.sub fun n => .pure) ?_
  refine .pass fun b => .ite ?_ (.sub fun plain => ?_)
  · exact .pass fun _ => .pass fun _ => .pure
  · refine .askIf (.bind namespacedRest_steps fun name => ?_) ?_
    · exact .bind attributeRest_steps fun n => .pure
    · exact .bind attributeRest_steps fun n => .pure

instance : Lays R jsxAttributes := .start fun _ => .sub fun list => .finish

instance (inExpression : Bool) : Lays R (openingTag inExpression) := by
  refine .start fun _ => .pass fun _ => .askIf (.pass fun _ => .finish) (.sub fun name => ?_)
  refine .pass fun b => .perhaps fun args => .sub fun list => .askIf (.pass fun _ => .finish) ?_
  exact .pass fun _ => .pass fun _ => .finish

omit [LaysGoals R] in
instance (inExpression : Bool) : Lays R (closingTag inExpression) := by
  refine .start fun _ => .askIf (.askIf (.pass fun _ => .finish) (.sub fun name => ?_)) .finish
  exact .pass fun _ => .finish

omit [LaysGoals R] in
instance : Lays R textChild :=
  .start fun _ => .pass fun text => .pass fun _ => .nodeHere fun e => by cases e

instance (opening : Node) : Lays R (child opening) := by
  refine .of fun _ => .pass fun k => ?_
  split
  all_goals first
    | exact .pure
    | exact .sub fun n => .pure
    | exact .pass fun _ => .pure

lemma elementRest_steps {form : Form} {opening : Node} {inExpression : Bool}
    (hform : form ≠ .expressionWithTypeArguments) :
    Steps R m [opening] (elementRest form m.pos opening inExpression) nodesIn := by
  refine .pass fun start => .part (.repeated inferInstance) fun children => .listFrom fun _ => ?_
  exact .sub fun closing => .pass fun _ => .finish hform

instance (inExpression : Bool) : Lays R (element inExpression) := by
  refine .start fun _ => .sub fun opening => ?_
  cases h : opened? opening with
  | none => exact .pure
  | some form =>
    refine elementRest_steps ?_
    rintro rfl
    unfold opened? at h
    split at h <;> cases h

end EstreeLint.Grammar
