import EstreeLint.Grammar.Class
import EstreeLint.Proofs.Grammar.Members

/-!
What the rules for types and classes build.
-/

namespace EstreeLint.Grammar

open Parse
open Estree (Usable IsAttributes IsMapping IsHeritage Supplied usable_of_form)

variable {α : Type} {text : Source} {R : Runner} {m : Mark} {ns : List Node} {K : Scanner → Prop}

section Peeks

instance : Peeks atFunctionType := by
  unfold atFunctionType atFunctionTypeParameters
  refine .andThen fun k => ?_
  split <;> infer_instance

instance : Peeks atNamedTupleMember := by unfold atNamedTupleMember; infer_instance

instance : Peeks atMappedType := by unfold atMappedType; infer_instance

end Peeks

variable [Reaches text R]

/-! ### Functions, references and literals -/

instance functionType_builds : Builds text R Anywhere functionType Usable := by
  refine ⟨fun m => ?_⟩
  refine .start (.sub (optionalToken_builds .abstractKw) fun words _ =>
    .listFrom? fun mods hmods => ?_)
  refine .sub (accept_builds .newKw) fun b _ => ?_
  refine .sub typeParameters_builds fun typeParams htypeParams => ?_
  refine .sub parameters_builds fun params hparams => .expect_ ?_
  refine .sub typeOrPredicate_builds fun type htype => ?_
  cases b
  · exact .build
  · exact .build

instance typeArgumentsOnLine_builds :
    Builds text R Anywhere typeArgumentsOnLine fun o => ∀ n ∈ nodesIn o, Usable n := by
  refine ⟨fun m => ?_⟩
  refine .askIf (.pure rfl (by simp)) (.reread rereads_less fun k => .ite (fun _ => ?_) fun _ => ?_)
  · exact .sub typeArguments_builds fun l hl => .pure (by simp) (by simpa using hl)
  · exact .pure rfl (by simp)

instance typeReference_builds : Builds text R Anywhere typeReference Usable := by
  refine ⟨fun m => ?_⟩
  refine .start (.sub (entityName_builds _) fun name hname => ?_)
  exact .sub typeArgumentsOnLine_builds fun args hargs => .build

instance typeQuery_builds : Builds text R Anywhere typeQuery Usable := by
  refine ⟨fun m => ?_⟩
  refine .start (.expect_ (.sub (entityName_builds _) fun name hname => ?_))
  exact .sub typeArgumentsOnLine_builds fun args hargs => .build

instance importTypeAttributes_builds :
    Builds text R Anywhere importTypeAttributes fun o => ∀ n ∈ o, Usable n := by
  refine ⟨fun m => ?_⟩
  refine .sub ((accept_builds _).and (accept_builds _)) fun b _ => .ite (fun _ => ?_) fun _ => ?_
  · have hattributes : Builds text R (fun σ => σ.kind ∈ [TokenKind.withKw, .assertKw])
        (importAttributes true) Usable :=
      (importAttributes_builds true).mono (fun _ h => h.1) (by simp; grind)
    refine .askIf (.sub hattributes.some ?_) .error
    rintro _ ⟨n, rfl, hn⟩
    refine .sub (accepting_builds _) fun _ _ => .expect_ (.sub (accepting_builds _) fun _ _ => ?_)
    exact .pure (by simp) (by simpa using hn)
  · exact .pure (by simp) (by simp)

instance importType_builds : Builds text R Anywhere importType Usable := by
  refine ⟨fun m => ?_⟩
  refine .start (.sub (accept_builds _) fun isTypeOf _ => .expect_ (.expect_ ?_))
  refine .sub (reach_builds _) fun argument hargument => ?_
  refine .sub importTypeAttributes_builds fun attributes hattributes => .expect_ ?_
  refine .acceptSome (entityName_builds _) fun qualifier hqualifier => ?_
  exact .sub typeArgumentsOnLine_builds fun args hargs => .build

/-- A literal that can be a type. -/
def AtLiteralType (σ : Scanner) : Prop :=
  σ.kind ∈ [TokenKind.stringLiteral, .numericLiteral, .bigIntLiteral, .trueKw, .falseKw, .nullKw,
      .noSubstitutionTemplateLiteral] ∨
    σ.kind = .minus ∧ σ.scan.kind ∈ [TokenKind.numericLiteral, .bigIntLiteral]

omit [Reaches text R] in
instance signedLiteral_builds : Builds text R AtLiteralType signedLiteral Usable := by
  refine ⟨fun m => ?_⟩
  refine .token fun k => ?_
  split
  · refine .start (.next' (fun σ => σ.kind ∈ [TokenKind.numericLiteral, .bigIntLiteral]) ?_ ?_)
    · have hword : TokenKind.minus.text?.isSome = true := by decide
      exact .sub (literal_usable [.numericLiteral, .bigIntLiteral]) fun operand hoperand => .build
    · rintro σ ⟨⟨h | h, -⟩, hk⟩
      · simp [hk] at h
      · exact h.2
  · exact .last (tokenNode_usable [.trueKw])
  · exact .last (tokenNode_usable [.falseKw])
  · exact .last (tokenNode_usable [.nullKw])
  · refine .last (literal_usable [.stringLiteral, .numericLiteral, .bigIntLiteral,
      .noSubstitutionTemplateLiteral]) (fun _ h => h) ?_
    rintro σ ⟨⟨h | h, hfull⟩, rfl⟩
    · simp_all
    · simp_all

omit [Reaches text R] in
instance literalType_builds : Builds text R AtLiteralType literalType Usable := by
  refine ⟨fun m => ?_⟩
  exact .start (.sub signedLiteral_builds fun value hvalue => .build)

/-! ### Tuples and mapped types -/

instance tupleElementType_builds : Builds text R Anywhere tupleElementType Usable := by
  refine ⟨fun m => ?_⟩
  refine .start (.acceptIf (.sub (reach_builds _) fun inner hinner => .build) ?_)
  refine .sub (reach_builds _) fun inner hinner => .acceptIf .build ?_
  exact .pure (by simp) hinner

instance tupleElement_builds : Builds text R Anywhere tupleElement Usable := by
  refine ⟨fun m => ?_⟩
  refine .start (.askIf ?_ (.last tupleElementType_builds))
  refine .sub (optionalToken_builds _) fun dots _ => .sub identifierName_usable fun name hname => ?_
  refine .sub (optionalToken_builds _) fun question _ => .expect_ ?_
  exact .sub tupleElementType_builds fun type htype => .build

instance tupleType_builds : Builds text R Anywhere tupleType Usable := by
  refine ⟨fun m => ?_⟩
  exact .start (.sub (enclosedList_builds tupleElement_builds) fun elements h => .build)

omit [Reaches text R] in
lemma signedMark_builds (k : TokenKind) (hk : Ordinary k := by decide) :
    Builds text R Anywhere (signedMark k) fun _ => True := by
  refine ⟨fun m => ?_⟩
  refine .askIf (.sub (tokenNode_at k hk) fun n _ => .pure (by simp) trivial) (.askIf ?_ ?_)
  · refine .sub (tokenNode_builds (P := (· ∈ [.plus, .minus])) (by decide)) fun sign _ => ?_
    exact .expect_ (.pure (by simp) trivial) hk.1
  · exact .pure rfl trivial

instance mappedParameter_builds : Builds text R Anywhere mappedParameter IsMapping := by
  refine ⟨fun m => ?_⟩
  refine .start (.sub identifier_usable fun name hname => .expect_ ?_)
  refine .sub (reach_builds _) fun constraint hconstraint => ?_
  refine .finish (Estree.fits_of_enough ?_) fun id stop => ?_
  · unfold Estree.enough Estree.wants
    simp_all
  · simp [IsMapping, Estree.supplied_must, Node.part?_ofParts, hname, hconstraint]

omit [Reaches text R] in
/-- A member that has no place in a mapped type is reported. -/
instance strayMember_builds : Builds text R Anywhere strayMember fun _ => False :=
  ⟨fun _ => .error⟩

instance mappedType_builds : Builds text R Anywhere mappedType Usable := by
  refine ⟨fun m => ?_⟩
  refine .start (.expect_ (.sub (signedMark_builds _) fun readonlyMark _ => .expect_ ?_))
  refine .sub mappedParameter_builds fun param hparam => ?_
  refine .sub (typeAfter_builds _) fun nameType hnameType => .expect_ ?_
  refine .sub (signedMark_builds _) fun question _ => .sub declaredType_builds fun type htype => ?_
  refine .sub semicolon_builds fun _ _ => ?_
  have hstray : Builds text R Anywhere (some <$> strayMember) fun o => ∀ n ∈ o, False :=
    strayMember_builds.some.mono fun _ ⟨_, _, h⟩ => h.elim
  refine .sub (listUntil_builds hstray) fun stray hstray => .expect_ ?_
  obtain hnil : stray.nodes = [] := List.eq_nil_iff_forall_not_mem.2 hstray
  refine .buildAs (Estree.fits_mappedType (by simp) hparam ?_ ?_) (by decide) (by simp [hnil])
  · simp_all
  · simp_all

/-! ### Other types -/

instance parenthesizedType_builds : Builds text R (At .openParen) parenthesizedType Usable := by
  refine ⟨fun m => ?_⟩
  exact .start (.next (.sub (reach_builds _) fun inner hinner => .expect_ .build))

instance typeLiteral_builds : Builds text R Anywhere typeLiteral Usable := by
  refine ⟨fun m => ?_⟩
  exact .start (.sub typeMembers_builds fun members h => .build)

instance thisTypeOrPredicate_builds : Builds text R (At .thisKw) thisTypeOrPredicate Usable := by
  refine ⟨fun m => ?_⟩
  refine .start (.sub thisType_builds fun this hthis => .askIf (.next ?_) (.pure (by simp) hthis))
  exact .sub (reach_builds _) fun type htype => .build

instance basicType_builds : Builds text R Anywhere basicType Usable := by
  refine ⟨fun m => ?_⟩
  refine .token fun k => ?_
  split
  iterate 11
    exact .askIf (.last typeReference_builds) (.last (tokenNode_usable [.anyKw, .unknownKw,
      .stringKw, .numberKw, .bigIntKw, .symbolKw, .booleanKw, .undefinedKw, .neverKw, .objectKw,
      .intrinsicKw]))
  · exact .last (tokenNode_usable [.voidKw])
  iterate 7
    exact .last literalType_builds (fun _ h => h) (by simp +contextual [AtLiteralType])
  · refine .peek fun next =>
      .ite (fun hnext => .last literalType_builds (fun _ h => h) ?_) fun _ => ?_
    · simp_all [AtLiteralType]
    · exact .last typeReference_builds
  · exact .last thisTypeOrPredicate_builds
  · exact .askIf (.last importType_builds) (.last typeQuery_builds)
  · exact .askIf (.last mappedType_builds) (.last typeLiteral_builds)
  · exact .last tupleType_builds
  · exact .last parenthesizedType_builds
  · exact .last importType_builds
  · exact .last (template_builds (.inr rfl) (by decide) (reach_builds _))
  · exact .ite (fun _ => .last typeReference_builds) fun _ => .error

instance bracketedType_builds : Builds text R Anywhere bracketedType Usable := by
  refine ⟨fun m => ?_⟩
  refine .start (.sub basicType_builds fun first hfirst => ?_)
  refine iterate_goes _ Usable hfirst fun type htype => ?_
  refine .askIf (.pure (by simp) (by simp))
    (.acceptIf (.acceptIf ?_ ?_) (.pure (by simp) (by simp)))
  · exact .bind .build fun n hn => .pure rfl (by simpa using hn)
  · refine .sub (reach_builds _) fun index hindex => .expect_ ?_
    exact .bind .build fun n hn => .pure rfl (by simpa using hn)

instance inferredParameter_builds : Builds text R Anywhere inferredParameter Usable := by
  refine ⟨fun m => ?_⟩
  refine .start (.sub identifier_usable fun name hname => ?_)
  refine .having (fun o => ∀ n ∈ o, Usable n) (attempt_builds ⟨fun m => ?_⟩)
    fun constraint h => .build
  refine .acceptIf (.sub (.withContext _ _ (reach_builds _)) fun n hn => ?_) (.pure rfl (by simp))
  exact .askIf (.pure (by simp) (by simpa using hn)) (.drop (by simp) (by simp))

instance typeOperator_builds : Builds text R Anywhere typeOperator Usable := by
  have hword : ∀ k ∈ [TokenKind.keyOfKw, .uniqueKw, .readonlyKw], k.text?.isSome = true := by decide
  refine ⟨fun m => ?_⟩
  refine .start (.token fun k => ?_)
  split
  iterate 3
    refine .token fun operator => .know (Q := operator.text?.isSome = true) ?_ fun hoperator => ?_
    · exact fun σ h => hword operator (by grind)
    · exact .next (.sub (reach_builds _) fun type htype => .build)
  · exact .next (.sub inferredParameter_builds fun param hparam => .build)
  · exact .last (.withContext _ _ bracketedType_builds)

lemma typeList_builds {operator : TokenKind} {form : Form} {constituent : Parse Node}
    (hform : form = .unionType ∨ form = .intersectionType) (ho : operator ≠ .endOfFile)
    (h : Builds text R Anywhere constituent Usable) :
    Builds text R Anywhere (typeList operator form constituent) Usable := by
  have hoperand : Builds text R Anywhere (typeOperand constituent) Usable :=
    ⟨fun m => .askIf (.last functionType_builds) (.last h)⟩
  refine ⟨fun m => ?_⟩
  refine .start (.sub (accept_builds operator ho) fun leading _ => ?_)
  refine .choose (fun _ => hoperand.mono fun _ h => h) (fun _ => h.mono fun _ h => h)
    fun first hfirst => ?_
  refine .look fun b => .ite (fun _ => .pure (by simp) hfirst) fun _ => ?_
  refine .sub (many_builds Usable ⟨fun m => ?_⟩) fun rest hrest => .listFrom fun span => ?_
  · refine .acceptIf (.sub hoperand fun n hn => ?_) (.pure rfl (by simp)) ho
    exact .pure (by simp) (by simpa using hn)
  · rcases hform with rfl | rfl
    · exact .build
    · exact .build

instance intersectionType_builds : Builds text R Anywhere intersectionType Usable :=
  typeList_builds (.inr rfl) (by decide) typeOperator_builds

instance unionType_builds : Builds text R Anywhere unionType Usable :=
  typeList_builds (.inl rfl) (by decide) intersectionType_builds

instance anyType_builds : Builds text R Anywhere anyType Usable := by
  refine ⟨fun m => ?_⟩
  refine .askIf (.last functionType_builds)
    (.start (.sub unionType_builds fun checked hchecked => ?_))
  refine .sub (.and .ofPeeks (.and .ofPeeks (accept_builds _))) fun b _ =>
    .ite (fun _ => ?_) fun _ => ?_
  · refine .sub (.withContext _ _ (reach_builds _)) fun bound hbound => .expect_ ?_
    refine .sub (.withContext _ _ (reach_builds _)) fun whenTrue htrue => .expect_ ?_
    exact .sub (.withContext _ _ (reach_builds _)) fun whenFalse hfalse => .build
  · exact .pure (by simp) hchecked

instance type_builds : Builds text R Anywhere type Usable := anyType_builds.nested

/-! ### Type arguments in expressions -/

omit [Reaches text R] in
instance : Peeks canFollowTypeArguments := by
  unfold canFollowTypeArguments
  refine .andThen fun k => ?_
  split <;> infer_instance

instance typeArgumentsInExpression_builds :
    Builds text R Anywhere typeArgumentsInExpression fun o => ∀ l ∈ o, ∀ n ∈ l.nodes, Usable n := by
  refine ⟨fun m => ?_⟩
  refine .askIf (.last (attempt_builds (K := Anywhere) ⟨fun m => ?_⟩)) (.pure rfl (by simp))
  refine .reread rereads_less fun k => .ite (fun _ => .pure rfl (by simp)) fun hk => .next ?_
  refine .look fun before => .sub (commaList_builds (reach_builds _)) fun list hlist => ?_
  refine .look fun after => .ite (fun _ => .drop (by simp) (by simp)) fun _ => ?_
  refine .rereadThere rereads_greater fun k =>
    .ite (fun _ => .drop (by simp) (by simp)) fun hk => ?_
  refine .next (.askIf ?_ (.drop (by simp) (by simp)))
  exact .pure (by simp) (by simpa using hlist)

/-! ### Classes -/

section Split

variable {β : Type} {e : Node} {p : Parse β} {out : β → List Node} {val : β → Prop}

omit [Reaches text R] in
/-- An expression with type arguments is a name and the arguments. -/
lemma splitTypeArguments?_eq (he : Usable e) (h : e.isForm .expressionWithTypeArguments = true) :
    ∃ name args, splitTypeArguments? e = some (name, some args) ∧ e.children = name :: args.nodes ∧
      e.part? .typeName = some name ∧ e.list? .typeArgument = some args := by
  obtain ⟨name, args, span, hc, hname, hargs, hlists⟩ := he.applied h
  have hpart : e.part? .typeName = some name := by simp [Tree.part?, hc, hname]
  have hparts : e.partsOf .typeArgument = args := by
    simpa [Tree.partsOf, hc, hname, List.filter_eq_self] using hargs
  have hlist : e.list? .typeArgument = some ⟨args, span⟩ := by simp [Tree.list?, hlists, hparts]
  exact ⟨name, ⟨args, span⟩, by simp [splitTypeArguments?, h, hpart, hlist], hc, hpart, hlist⟩

omit [Reaches text R] in
/-- The name and the arguments of an expression that is fit are usable. -/
lemma usable_of_applied {name : Node} {args : NodeList}
    (hk : e.isForm .expressionWithTypeArguments = true)
    (h : Estree.Fit e) (hname : e.part? .typeName = some name)
    (hargs : e.list? .typeArgument = some args) : Usable name ∧ ∀ n ∈ args.nodes, Usable n := by
  have hkind : e.kind = .form .expressionWithTypeArguments := by simpa [Tree.isForm] using hk
  have hneeds := h.resolve_left (by simp [Estree.Stray, Tree.isForm, Tree.isToken, hkind])
  have hneeds := hneeds .root e.kind
  simp only [Estree.needs, Tree.kind_withRole, hkind] at hneeds
  obtain ⟨happlied, -⟩ := (Estree.met_append _ _).1 hneeds
  rw [Estree.needsApplied_withRole] at happlied
  obtain ⟨hn, ha⟩ := (Estree.met_append _ _).1 happlied
  obtain ⟨name', hname', hu⟩ := Estree.supplied_must.1 hn
  obtain rfl : name' = name := by simpa [hname] using hname'.symm
  refine ⟨hu, ?_⟩
  rw [Estree.Needs.listed, hargs] at ha
  have hparts : e.partsOf .typeArgument = args.nodes := by
    obtain ⟨span, -, rfl⟩ := Option.map_eq_some_iff.1 hargs
    rfl
  exact hparts ▸ Estree.supplied_all.1 ha

omit [Reaches text R] in
/-- **An expression with type arguments may be taken apart again.** -/
lemma Goes.split (ns ms : List Node) (he : Usable e)
    (h₁ : splitTypeArguments? e = none → Goes text R m (ns ++ e :: ms) K p out val)
    (h₂ : ∀ name args, splitTypeArguments? e = some (name, some args) → Usable name →
      (∀ n ∈ args.nodes, Usable n) → Goes text R m (ns ++ name :: args.nodes ++ ms) K p out val) :
    Goes text R m (ns ++ e :: ms) K p out val := by
  by_cases h : e.isForm .expressionWithTypeArguments = true
  · obtain ⟨name, args, hsplit, hc, hname, hargs⟩ := splitTypeArguments?_eq he h
    intro hv s hs hk hclean
    obtain ⟨ts, hts, hsp⟩ := hs.spelled
    obtain ⟨hinline, hfit⟩ := hsp.inline (by simpa [Tree.isForm] using h)
    obtain ⟨hu, hus⟩ := usable_of_applied h (hfit he) hname hargs
    rw [hc] at hinline
    exact h₂ name args hsplit hu hus hv s ⟨hs.sound, ts, hts, hinline⟩ hk hclean
  · exact h₁ (by simp [splitTypeArguments?, h])

end Split

omit [Reaches text R] in
/-- A name in a heritage clause with its type arguments. -/
lemma applied_goes {name : Node} {args : Option NodeList} (hname : Usable name)
    (hargs : ∀ n ∈ nodesIn args, Usable n)
    (hn : name :: (args.map (·.nodes)).getD [] = ns := by simp) :
    Goes text R m ns K
      (finish .expressionWithTypeArguments m.pos
        [.one .typeName name, .optional .typeArgument args])
      nodesIn fun n => Supplied (Estree.Needs.applied n) := by
  refine .finish (Estree.fits_applied hname (by cases args <;> simp_all)) ?_ (by simpa using hn)
  intro id stop
  refine (Estree.met_append _ _).2 ⟨?_, Estree.supplied_listed ?_⟩
  · simp [Estree.supplied_must, Node.part?_ofParts, hname]
  · simpa [Node.partsOf_ofParts] using hargs

instance heritageType_builds :
    Builds text R Anywhere heritageType fun n => Supplied (Estree.Needs.applied n) := by
  refine ⟨fun m => ?_⟩
  refine .start (.sub (reach_builds _) fun e he => .split [] [] he (fun hsplit => ?_) ?_)
  · dsimp only
    rw [hsplit]
    refine .askIf (.sub typeArguments_builds fun args hargs => .pureThen ?_) (.pureThen ?_)
    · exact applied_goes he (by simpa using hargs)
    · exact applied_goes he (by simp)
  · rintro name args hsplit hname hargs
    dsimp only
    rw [hsplit]
    exact .pureThen (applied_goes hname (by simpa using hargs))

instance heritageClause_builds :
    Builds text R (fun σ => σ.kind ≠ .endOfFile) heritageClause IsHeritage := by
  refine ⟨fun m => ?_⟩
  refine .start (.look fun opening => .next (.look fun typesStart => ?_))
  refine .sub (separated_builds heritageType_builds) fun types htypes => .listFrom fun span => ?_
  refine .finish (Estree.fits_unruled (by decide)) fun id stop => ?_
  simpa [IsHeritage, Node.partsOf_ofParts] using htypes

instance heritageClauses_builds :
    Builds text R Anywhere heritageClauses fun o => ∀ n ∈ nodesIn o, IsHeritage n := by
  refine ⟨fun m => ?_⟩
  refine .look fun start => .sub (many_builds IsHeritage ⟨fun m => ?_⟩) fun clauses hclauses => ?_
  · refine .askIf (.sub heritageClause_builds (fun n hn => ?_) (by simp; grind))
      (.pure rfl (by simp))
    exact .pure (by simp) (by simpa using hn)
  · rw [← bind_pure (listFrom? _ _)]
    refine .listFrom? ?_
    rintro o rfl
    exact .pure (by simp) (by simpa using hclauses)

lemma classLike_goes {form : Form} {mods : Option NodeList}
    (hform : form = .classDeclaration ∨ form = .classExpression)
    (hn : (mods.map (·.nodes)).getD [] = ns := by simp) :
    Goes text R m ns K (classLike form m.pos mods) nodesIn Usable := by
  subst hn
  refine .expect_ (.askSome identifier_usable fun name hname => ?_)
  refine .sub typeParameters_builds fun typeParams htypeParams => ?_
  refine .sub heritageClauses_builds fun heritage hheritage => .expect_ ?_
  refine .sub (listUntil_builds classMember_builds) fun members hmembers => .expect_ ?_
  refine .buildAs (Estree.fits_classLike hform ?_ ?_ ?_ ?_) ?_
  · simp_all
  · simpa using htypeParams
  · simpa using hheritage
  · simpa using hmembers
  · rcases hform with rfl | rfl <;> decide

end EstreeLint.Grammar
