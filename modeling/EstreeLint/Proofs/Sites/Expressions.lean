import EstreeLint.Grammar.Class
import EstreeLint.Proofs.Grammar.Elements
import EstreeLint.Proofs.Grammar.Operations
import EstreeLint.Proofs.Sites.Types

/-!
What the rules for classes and expressions anchor.
-/

namespace EstreeLint.Grammar

open Parse
open Text (IsCut)

variable {β : Type} {text : Source} {clean : Prop} {R : Runner} {q : Nat} {out : β → Prop}

/-! ### Type arguments that are taken apart -/

lemma split_sited {e name : Node} {args : Option NodeList} (h : Sited text clean e)
    (hsplit : splitTypeArguments? e = some (name, args)) :
    Sited text clean name ∧ IfAny (SitedList text clean) args ∧
      IfAny (Delimited text clean) args := by
  unfold splitTypeArguments? at hsplit
  split at hsplit
  · next hform =>
    obtain ⟨m, hm, hpair⟩ := Option.map_eq_some_iff.1 hsplit
    obtain ⟨rfl, rfl⟩ := Prod.mk.inj hpair
    refine ⟨h.of_part? hm, fun l hl => ⟨?_, ?_⟩, fun l hl => ?_⟩
    · obtain ⟨span, -, rfl⟩ := Option.map_eq_some_iff.1 hl
      exact fun n hn => h.of_partsOf hn
    · exact (h.anchored.lists _ _ hl).1
    · exact (h.anchored.lists _ _ hl).2 rfl
  · cases hsplit

/-- A rule that goes on with an expression, or with the name and the arguments it is split into. -/
lemma Keeps.splitOr {K : Scanner → Prop} {e : Node} {f : Node × Option NodeList → Parse β}
    (he : Sited text clean e)
    (hf : ∀ name args, Sited text clean name → IfAny (SitedList text clean) args →
      IfAny (Delimited text clean) args → Keeps text clean R K (f (name, args)) out) :
    Keeps text clean R K (f ((splitTypeArguments? e).getD (e, none))) out := by
  cases hsplit : splitTypeArguments? e with
  | none => exact hf e none he (by simp) (by simp)
  | some x =>
    obtain ⟨hname, hargs, hopened⟩ := split_sited he hsplit
    exact hf x.1 x.2 hname hargs hopened

variable [FrontGoals R] [SitesGoals text clean R]

/-! ### Classes -/

instance : Sites text clean R heritageType (Sited text clean) := by
  refine .start fun _ hq => .sub fun e he => ?_
  cases hsplit : splitTypeArguments? e with
  | none =>
    refine .askIf (.sub fun args ha => .pureThen (.finish hq)) (.pureThen (.finish hq))
  | some x =>
    obtain ⟨hname, hargs, hopened⟩ := split_sited he hsplit
    exact .pureThen (.finish hq)

instance : Sites text clean R heritageClause (Sited text clean) := by
  refine .start fun _ hq => .pass fun opening => .pass fun _ => .pass fun start => ?_
  exact .sub fun types ht => .listFrom ht fun l hl => .finish hq

instance : Sites text clean R heritageClauses (IfAny (SitedList text clean)) := by
  have each : Keeps text clean R (fun _ => True) heritageClause? (IfAny (Sited text clean)) :=
    .askIf (.found .last) (.pure ifAny_none)
  exact .of (.pass fun start => .bind (Sites.repeated each).keeps fun clauses hc => .lastFrom? hc)

lemma classLike_keeps {form : Form} {mods : Option NodeList}
    (hm : IfAny (SitedList text clean) mods) (hq : IsCut text q)
    (hform : form ∉ specialForms := by decide) :
    Keeps text clean R (fun _ => True) (classLike form q mods) (Sited text clean) := by
  refine .pass fun _ => .pass fun named => .perhaps fun name hn => .sub fun typeParams hp => ?_
  refine .sub fun heritage hh => .expect_ (.opened (fun _ => rfl) fun members hl ho => ?_)
  exact .pass fun _ => .finish hq (by simp [*, askingRoles]) hform

/-! ### Lists -/

instance : Sites text clean R expression (Sited text clean) := by
  refine .inContext (.start fun _ hq => .sub fun first hfirst => .iterate hfirst fun left hl => ?_)
  refine .askIf (.sub fun operator ho => .sub fun right hr => ?_) (.pure ifAny_none)
  exact .found (.finish hq)

instance : Sites text clean R fullExpression (Sited text clean) :=
  inferInstanceAs (Sites text clean R (withContext ..) _)

instance : Sites text clean R listElement (Sited text clean) := by
  refine .start fun _ hq => .pass fun k => ?_
  split
  · exact .pass fun _ => .sub fun e he => .finish hq
  · exact .empty hq
  · exact .last

instance : Sites text clean R argumentList (SitedList text clean) :=
  Sites.mono .enclosed fun _ h => h.1

instance : Sites text clean R arrayLiteral (Sited text clean) :=
  .start fun _ hq => .enclosed fun elements hl _ => .finish hq

instance : Sites text clean R objectElement (Sited text clean) := by
  refine .start fun _ hq => .askIf (.sub fun e he => .finish hq) (.sub fun mods hm => ?_)
  refine .askIf (accessor_keeps hm hq) (.sub fun asterisk ha => .pass fun startsWithName => ?_)
  refine .sub fun name hn => .sub fun question hquestion => .pass fun b => ?_
  refine .ite (methodRest_keeps hm hq ha hn hquestion) (.pass fun b => ?_)
  exact .ite (.sub fun value hv => .finish hq) (.pass fun _ => .sub fun value hv => .finish hq)

instance : Sites text clean R objectLiteral (Sited text clean) :=
  .start fun _ hq => .enclosed fun elements hl _ => .finish hq

/-! ### Primary expressions -/

instance : Sites text clean R parenthesized (Sited text clean) :=
  .start fun _ hq => .pass fun _ => .sub fun e he => .pass fun _ => .finish hq

omit [FrontGoals R] [SitesGoals text clean R] in
instance : Sites text clean R asyncModifier (IfAny (SitedList text clean)) :=
  .of (.pass fun start => .sub fun word hw => .lastFrom? (by simpa [IfAny] using hw))

instance : Sites text clean R functionExpression (Sited text clean) := by
  refine .start fun _ hq => .sub fun mods hm => .pass fun _ => .sub fun asterisk ha => ?_
  refine .bind (P := fun x => IfAny (Sited text clean) x.1 ∧ SignatureFits text clean x.2)
    (Sites.inContext (.of (.pass fun b => .perhaps fun name hn => ?_))).keeps fun x hx => ?_
  · exact .sub fun parts hp => .pure ⟨hn, hp⟩
  · have := hx.2 .functionExpression (by decide)
    exact .finish hq

instance : Sites text clean R templateExpression (Sited text clean) :=
  template_sites (by decide) (by decide)

instance : Sites text clean R anyTemplate (Sited text clean) := .lookIf inferInstance inferInstance

/-! ### Members -/

section Members

variable {e : Node} {questionDot : Option Node} {args : Option NodeList}
  (he : Sited text clean e) (hdot : IfAny (Sited text clean) questionDot) (hq : IsCut text q)

include he hq

omit [FrontGoals R]

lemma taggedTemplate_keeps (ha : IfAny (SitedList text clean) args)
    (ho : IfAny (Delimited text clean) args) :
    Keeps text clean R (fun _ => True) (taggedTemplate q e questionDot args) (Sited text clean) :=
  .sub fun piece hp => .finish hq

lemma trailingLink_keeps :
    Keeps text clean R (fun _ => True) (trailingLink q e) (IfAny (Sited text clean)) := by
  refine .askIf ?_ (.sub fun o ho => ?_)
  · refine .splitOr (f := fun x => taggedTemplate q x.1 none x.2 >>= fun n => pure (some n)) he ?_
    exact fun name args hn ha ho => .found (taggedTemplate_keeps hn hq ha ho)
  · cases o with
    | none => exact .pure ifAny_none
    | some args =>
      simp only [ifAny_some] at ho
      exact .found (.finish hq)

include hdot

omit [SitesGoals text clean R] in
lemma propertyAccess_keeps :
    Keeps text clean R (fun _ => True) (propertyAccess q e questionDot) (Sited text clean) :=
  .sub fun name hn => .finish hq

lemma elementAccess_keeps :
    Keeps text clean R (fun _ => True) (elementAccess q e questionDot) (Sited text clean) := by
  refine .askIf (.pass fun _ => .sub fun argument ha => .pass fun _ => .finish hq) ?_
  exact .sub fun argument ha => .pass fun _ => .finish hq

omit hdot

lemma optionalLink_keeps {dot : Node} (hdot : Sited text clean dot) :
    Keeps text clean R (fun _ => True) (optionalLink q e dot) (IfAny (Sited text clean)) := by
  have hdot : IfAny (Sited text clean) (some dot) := ifAny_some.2 hdot
  refine .askIf (.found (propertyAccess_keeps he hdot hq)) ?_
  refine .askIf (.found (elementAccess_keeps he hdot hq)) (.askIf ?_ (.pure ifAny_none))
  exact .found (taggedTemplate_keeps he hq ifAny_none ifAny_none)

lemma plainLink_keeps :
    Keeps text clean R (fun _ => True) (plainLink q e) (IfAny (Sited text clean)) := by
  have trailing := trailingLink_keeps (R := R) he hq
  refine .askIf (.found (propertyAccess_keeps he ifAny_none hq)) ?_
  refine .askIf (.pass fun _ => .found (.finish hq)) (.pass fun b => .ite ?_ trailing)
  exact .askIf (.found (elementAccess_keeps he ifAny_none hq)) trailing

lemma memberLinks_keeps {allowOptional : Bool} :
    Keeps text clean R (fun _ => True) (memberLinks q allowOptional e) (Sited text clean) := by
  refine .iterate he fun _ he => .pass fun _ => .ite ?_ (plainLink_keeps he hq)
  exact .sub fun dot hdot => optionalLink_keeps he hq hdot

end Members

instance : Sites text clean R newCallee (Sited text clean) :=
  .start fun _ hq => .sub fun _ he => memberLinks_keeps he hq

instance : Sites text clean R newExpression (Sited text clean) := by
  refine .start fun _ hq => .pass fun _ => .askIf (.sub fun name hn => .finish hq) ?_
  refine .sub fun callee hc => ?_
  cases hsplit : splitTypeArguments? callee with
  | none => exact .pass fun b => .onlyIf (.pass fun b => .perhaps fun args ha => .finish hq)
  | some x =>
    obtain ⟨hname, hargs, hopened⟩ := split_sited hc hsplit
    exact .pass fun b => .onlyIf (.pass fun b => .perhaps fun args ha => .finish hq)

omit [FrontGoals R] [SitesGoals text clean R] in
instance : Sites text clean R noExpression (Sited text clean) := .of (.pass fun _ => .last)

instance : Sites text clean R decoratedClass (Sited text clean) :=
  .start fun _ hq => .sub fun mods hm => .askIf (classLike_keeps hm hq) .last

instance : Sites text clean R primary (Sited text clean) := by
  refine .look fun k => ?_
  split
  all_goals first
    | exact inferInstance
    | exact .lookIf inferInstance inferInstance
    | exact .start fun _ hq => classLike_keeps ifAny_none hq
    | exact .of (.pass fun _ => .last)

/-! ### Calls -/

omit [FrontGoals R] [SitesGoals text clean R] in
instance : Sites text clean R superExpression (Sited text clean) := by
  refine .start fun _ hq => .sub fun e he => .askIf (.pure he) ?_
  exact .pass fun _ => .sub fun name hn => .finish hq

section Calls

variable {e : Node} {questionDot : Option Node} {args : Option NodeList}
  (he : Sited text clean e) (hq : IsCut text q)

include he hq

omit [FrontGoals R]

lemma callRest_keeps (hdot : IfAny (Sited text clean) questionDot)
    (ha : IfAny (SitedList text clean) args) (ho : IfAny (Delimited text clean) args) :
    Keeps text clean R (fun _ => True) (callRest q e questionDot args) (Sited text clean) :=
  .sub fun list hl => .finish hq

lemma optionalCall_keeps {dot : Node} (hdot : Sited text clean dot) :
    Keeps text clean R (fun _ => True) (optionalCall q e dot) fun x => Sited text clean x.1 := by
  refine .sub fun args ha => .askIf ?_ (.pass fun b => .ite ?_ ?_)
  · exact .bind (taggedTemplate_keeps he hq ha.1 ha.2) fun n hn => .pure hn
  · exact .bind (callRest_keeps he hq (ifAny_some.2 hdot) ha.1 ha.2) fun n hn => .pure hn
  · exact .pass fun _ => .sub fun name hname => .bind (.finish hq) fun n hn => .pure hn

lemma callLink_keeps :
    Keeps text clean R (fun _ => True) (callLink q e) fun x => Sited text clean x.1 := by
  refine .askIf (.sub fun dot hdot => optionalCall_keeps he hq hdot) (.askIf ?_ (.pure he))
  refine .splitOr (f := fun x => callRest q x.1 none x.2 >>= fun n => pure (n, true)) he ?_
  exact fun name args hn ha ho => .bind (callRest_keeps hn hq ifAny_none ha ho) fun n hn => .pure hn

lemma callLinks_keeps :
    Keeps text clean R (fun _ => True) (callLinks q e) (Sited text clean) := by
  refine .bind (P := fun x => Sited text clean x.1) (.iterate he fun x hx => .ite ?_ ?_)
    fun x hx => .pure hx
  · exact .bind (memberLinks_keeps hx hq) fun e he => .found (callLink_keeps he hq)
  · exact .pure ifAny_none

end Calls

instance : Sites text clean R leftHandSide (Sited text clean) := by
  refine .start fun q hq => ?_
  have member : Keeps text clean R (fun _ => True) (primary >>= memberLinks q true)
      (Sited text clean) := .sub fun e he => memberLinks_keeps he hq
  have rest (e : Node) (he : Sited text clean e) := callLinks_keeps (R := R) he hq
  refine .pass fun k => ?_
  split
  · refine .pass fun next => ?_
    split
    · exact .sub rest
    · exact .sub rest
    · exact .pass fun _ => .pass fun _ => .sub fun name hn => .bind (.finish hq) rest
    · exact .bind member rest
  · exact .sub rest
  · exact .bind member rest

/-! ### Operators -/

instance : Sites text clean R updateExpression (Sited text clean) := by
  refine .start fun _ hq => .pass fun operator => .ite (.pass fun _ => ?_) ?_
  · exact .sub fun operand ho => .finish hq
  refine .askIf .last (.sub fun operand ho => .askIf ?_ (.pure ho))
  exact .pass fun operator => .pass fun _ => .finish hq

omit [FrontGoals R] in
lemma applied_sites {form : Form} {parts : List Part} {r : Role}
    (hparts : PartsFit text clean (.form form) parts := by simp)
    (hform : form ∉ specialForms := by decide) (hr : r ∉ askingRoles := by decide) :
    Sites text clean R (applied form parts r) (Sited text clean) :=
  .start fun _ hq => .pass fun _ => .sub fun e he => .finish hq (by simp [*]) hform

instance : Sites text clean R typeAssertion (Sited text clean) := by
  refine .start fun _ hq => .pass fun _ => .sub fun type ht => .pass fun _ => ?_
  exact .sub fun e he => .finish hq

instance : Sites text clean R simpleUnary (Sited text clean) := by
  refine .look fun k => ?_
  split
  iterate 7 exact applied_sites
  · exact .lookIf inferInstance inferInstance
  · exact .lookIf applied_sites inferInstance
  · exact inferInstance

instance (above : Nat) : Sites text clean R (binary above) (Sited text clean) := by
  refine .start fun _ hq => .sub fun left hl => .iterate hl fun left hl => .pass fun operator => ?_
  refine .ite (.pure ifAny_none) (.pass fun b => .ite (.pure ifAny_none) (.ite ?_ ?_))
  · refine .askIf (.pure ifAny_none) (.pass fun _ => .sub fun type ht => .found (.finish hq ?_ ?_))
    · simp [*, askingRoles]
    · split <;> decide
  · exact .sub fun mark hmark => .sub fun right hr => .found (.finish hq)

/-! ### Arrow functions -/

instance (async returnType : Bool) :
    Sites text clean R (arrowBody async returnType) (Sited text clean) :=
  .lookIf inferInstance inferInstance

instance (sure returnTypeAllowed : Bool) :
    Sites text clean R (parenthesizedArrow sure returnTypeAllowed) (IfAny (Sited text clean)) := by
  have head : Sites text clean R
      (do let typeParams ← typeParameters
          let params ← if ← isAt .openParen then some <$> parameters else pure none
          return (typeParams, params))
      fun x => (IfAny (SitedList text clean) x.1 ∧ IfAny (Delimited text clean) x.1) ∧
        IfAny (fun l => SitedList text clean l ∧ AllParameters l ∧ Delimited text clean l) x.2 :=
    .of (.sub fun typeParams ht => .pass fun b => .perhaps fun params hp => .pure ⟨ht, hp⟩)
  refine .start fun _ hq => .sub fun mods hm => .pass fun before => ?_
  refine .bind (Sites.inContext head).keeps ?_
  rintro ⟨typeParams, _ | params⟩ ⟨ht, hp⟩
  · exact .pure ifAny_none
  simp only [ifAny_some] at hp
  refine .pass fun clean => .ite (.pure ifAny_none) (.pass fun hasColon => ?_)
  refine .sub fun type htype => ?_
  refine .pass fun clean => .ite (.pure ifAny_none) (.pass fun last => .ite (.pure ifAny_none) ?_)
  refine .sub fun arrow ha => .onlyIf (.choose fun body hb => .pass fun b => ?_)
  exact .ite (.pure ifAny_none) (.found (.finish hq))

instance (returnTypeAllowed : Bool) :
    Sites text clean R (parenthesizedArrow? returnTypeAllowed) (IfAny (Sited text clean)) := by
  refine .look fun guess => ?_
  cases guess with
  | no => exact .pure ifAny_none
  | yes => exact .tried inferInstance
  | maybe => exact .triedUnlessRuledOut inferInstance

omit [FrontGoals R] in
lemma simpleArrow_keeps {name : Node} {mods : Option NodeList} {returnType : Bool}
    (hm : IfAny (SitedList text clean) mods) (hn : Sited text clean name) (hb : Binds name)
    (hq : IsCut text q) :
    Keeps text clean R (fun _ => True) (simpleArrow q name mods returnType) (Sited text clean) := by
  have hname : PartsFit text clean (.form .parameter) [.one .name (some name)] := by
    simp [*, askingRoles]
  refine .bind (P := fun n => Sited text clean n ∧ n.isForm .parameter = true ∧
    IsCut text n.stop) ?_ fun param hp => ?_
  · exact fun s hs _ _ => ⟨hs, sited_ofParts hn.anchored.pos hn.anchored.stop hname
      (fun _ => ⟨name, rfl, hb⟩) (fun _ h => by cases h), rfl, hn.anchored.stop⟩
  · obtain ⟨hp, hform, hstop⟩ := hp
    have hlist : SitedList text clean ⟨[param], { pos := param.pos, stop := param.stop }⟩ :=
      ⟨List.forall_mem_singleton.2 hp, hstop⟩
    have hall : AllParameters ⟨[param], { pos := param.pos, stop := param.stop }⟩ :=
      List.forall_mem_singleton.2 hform
    exact .sub fun arrow ha => .sub fun body hbody => .finish hq

instance (returnType : Bool) :
    Sites text clean R (asyncArrow? returnType) (IfAny (Sited text clean)) := by
  refine .lookIf (.start fun _ hq => .sub fun mods hm => ?_) (.pure ifAny_none)
  exact .subBinding fun name hn hb => .found (simpleArrow_keeps hm hn hb hq)

/-! ### Assignments -/

instance : Sites text clean R yieldExpression (Sited text clean) := by
  refine .start fun _ hq => .pass fun _ => .askIf ?_ (.finish hq)
  exact .sub fun asterisk ha => .sub fun e he => .finish hq

omit [FrontGoals R] in
lemma conditionalRest_keeps {condition : Node} {returnType : Bool} (hc : Sited text clean condition)
    (hq : IsCut text q) :
    Keeps text clean R (fun _ => True) (conditionalRest q condition returnType)
      (Sited text clean) := by
  refine .askIf (.sub fun whenTrue ht => .pass fun b => ?_) (.pure hc)
  exact .choose fun whenFalse hf => .finish hq

instance (returnType : Bool) :
    Sites text clean R (assignmentRest returnType) (Sited text clean) := by
  refine .start fun _ hq => .sub fun left hl => .pass fun b => .iteOf (fun hb => ?_) (.ite ?_ ?_)
  · have hbinds : Binds left := .inl (by simpa [Tree.isToken] using (Bool.and_eq_true_iff.1 hb).1)
    exact simpleArrow_keeps ifAny_none hl hbinds hq
  · refine .pass fun k => .ite ?_ (conditionalRest_keeps hl hq)
    exact .sub fun operator ho => .sub fun right hr => .finish hq
  · exact conditionalRest_keeps hl hq

instance (returnType : Bool) : Sites text clean R (assignment returnType) (Sited text clean) := by
  refine .nest inferInstance (.of (.askIf .last (.sub fun arrow ha => ?_)))
  cases arrow with
  | some n => exact .pure (ifAny_some.1 ha)
  | none =>
    refine .sub fun arrow ha => ?_
    cases arrow with
    | some n => exact .pure (ifAny_some.1 ha)
    | none => exact .last

end EstreeLint.Grammar
