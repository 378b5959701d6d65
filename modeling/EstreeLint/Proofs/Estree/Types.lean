import EstreeLint.Proofs.Estree.Follows

/-!
The rules for tokens and for types follow their needs.
-/

namespace EstreeLint.Estree.Convert

variable {env : Env} {ok : Site → Prop}

/-! ### Tokens -/

section Leaf

variable (n : Node) (k : TokenKind)

lemma literal_follows : Follows env ok (literal n k) [] (Settled env.file) := by
  refine (tokensOf_harmless n).after fun r _ => (sourceOf_harmless r).after fun raw _ => ?_
  refine finish_follows ?_
  split <;> simp [literalParts]

lemma templateElement_follows : Follows env ok (templateElement n k) [] (Settled env.file) := by
  refine (tokensOf_harmless n).after fun r _ => ?_
  exact (sourceOf_harmless _).after fun raw _ => finish_follows (by simp)

lemma identifier_follows : Follows env ok (identifier n) [] (Settled env.file) := by
  refine .ofRead (.branch (finish_follows ?_) (finish_follows ?_)) <;> simp [identifierParts]

lemma jsxText_follows : Follows env ok (jsxText n) [] (Settled env.file) :=
  (sourceOf_harmless _).after fun raw _ => make_follows (by simp)

/-- A token converts exactly if a rule is for it. -/
lemma token_follows :
    Follows env ok (token n k) (Needs.fact (isConvertible k)) (Settled env.file) := by
  -- the tokens with a rule of their own, then the words that are a node by themselves
  unfold token
  split
  case h_1 => exact identifier_follows n
  case h_2 => exact finish_follows (by simp)
  case h_3 | h_4 | h_5 | h_6 | h_7 | h_8 | h_9 => exact literal_follows n _
  case h_10 =>
    exact (templateElement_follows n _).after fun quasi hq => finish_follows (by simpa using hq)
  case h_11 | h_12 | h_13 => exact templateElement_follows n _
  case h_14 | h_15 => exact jsxText_follows n
  case h_16 =>
    cases h : wordType? k with
    | some type =>
      have hk : isConvertible k = true := by simp [isConvertible, h]
      simp only [hk, Needs.fact, if_true]
      exact finish_follows (by simp)
    | none =>
      have hk : isConvertible k = false := by
        simp [isConvertible, h]
        grind
      rw [hk]
      exact .throw _

end Leaf

/-! ### Marks and lists around types -/

section Types

variable (hr : Recurs env ok) (n : Node)

include hr

lemma declaredType?_follows :
    Follows env ok (declaredType? n) (Needs.may n .declaredType)
      (fun o => ∀ c ∈ o, Settled env.file c) := by
  refine optional_follows n .declaredType fun type => ?_
  exact (convertPart_follows hr n type false).andThen fun inner hi =>
    make_follows (by simpa using hi)

omit hr in
lemma angleRange_harmless (l : NodeList) : Harmless env ok (angleRange l) :=
  (findToken_harmless _ _).after fun _ _ => .pure trivial

lemma angleList?_follows (r : Role) (type : NodeType) :
    Follows env ok (angleList? n r type) (Needs.listed n r)
      (fun o => o.isSome = (n.list? r).isSome ∧ ∀ c ∈ o, Settled env.file c) := by
  refine (Follows.mapM? (n.list? r) fun l _ =>
    (children_follows hr n r).andThen fun params hp => ?_).congr ?_
  · exact (angleRange_harmless l).after fun range _ => make_follows (by simpa using hp)
  · unfold Needs.listed
    cases n.list? r <;> simp

lemma typeParameters?_follows :
    Follows env ok (typeParameters? n) (Needs.listed n .typeParameter)
      (fun o => ∀ c ∈ o, Settled env.file c) :=
  (angleList?_follows hr n _ _).weaken fun _ h => h.2

lemma typeArguments?_follows :
    Follows env ok (typeArguments? n) (Needs.listed n .typeArgument)
      (fun o => ∀ c ∈ o, Settled env.file c) :=
  (angleList?_follows hr n _ _).weaken fun _ h => h.2

lemma wrappedType_follows (type : NodeType) (f : Field) :
    Follows env ok (wrappedType n type f) (Needs.must n .type) (Settled env.file) :=
  (child_follows hr n _).andThen fun inner hi => finish_follows (by simpa using hi)

lemma listedTypes_follows (type : NodeType) (f : Field) :
    Follows env ok (listedTypes n type f) (Needs.all n .element) (Settled env.file) :=
  (children_follows hr n _).andThen fun cs hc => finish_follows (by simpa using hc)

/-! ### References and predicates -/

lemma typeParameter_follows :
    Follows env ok (typeParameter n)
      (Needs.must n .name ++ (Needs.may n .constraint ++ Needs.may n .default))
      (Settled env.file) := by
  refine (child_follows hr n _).bind fun name hname => ?_
  refine (child?_follows hr n _).bind fun constraint hc => ?_
  exact (child?_follows hr n _).andThen fun default hd => finish_follows (by simp_all)

lemma typeReference_follows :
    Follows env ok (typeReference n) (Needs.must n .typeName ++ Needs.listed n .typeArgument)
      (Settled env.file) := by
  refine (child_follows hr n _).bind fun name hname => ?_
  exact (typeArguments?_follows hr n).andThen fun args ha => finish_follows (by simp_all)

lemma typeQuery_follows :
    Follows env ok (typeQuery n) (Needs.must n .typeName ++ Needs.listed n .typeArgument)
      (Settled env.file) := by
  refine (child_follows hr n _).bind fun name hname => ?_
  exact (typeArguments?_follows hr n).andThen fun args ha => finish_follows (by simp_all)

lemma typePredicate_follows :
    Follows env ok (typePredicate n) (Needs.must n .parameterName ++ Needs.may n .type)
      (Settled env.file) := by
  refine (child_follows hr n _).bind fun name hname => ?_
  refine (child?_follows hr n _).andThen fun type ht => ?_
  have mark : Follows env ok
      (type.mapM fun inner => make none inner.range .tsTypeMark [.one .type inner])
      (type.elim [] fun _ => []) (fun o => o.isSome = type.isSome ∧ ∀ c ∈ o, Settled env.file c) :=
    .mapM? type fun inner hi => make_follows (by simpa using ht inner hi)
  refine (mark.congr ?_).after fun type ht => finish_follows (by simp_all)
  cases type <;> simp

lemma qualifiedName_follows :
    Follows env ok (qualifiedName n) (Needs.must n .left ++ Needs.must n .right)
      (Settled env.file) := by
  refine (child_follows hr n _).bind fun left hl => ?_
  exact (child_follows hr n _).andThen fun right hr => finish_follows (by simp_all)

/-! ### Composite types -/

lemma conditionalType_follows :
    Follows env ok (conditionalType n)
      (Needs.must n .checkType ++ (Needs.must n .extendsType ++
        (Needs.must n .trueType ++ Needs.must n .falseType))) (Settled env.file) := by
  refine (child_follows hr n _).bind fun checked hc => ?_
  refine (child_follows hr n _).bind fun bound hb => ?_
  refine (child_follows hr n _).bind fun whenTrue ht => ?_
  exact (child_follows hr n _).andThen fun whenFalse hf => finish_follows (by simp_all)

lemma typeOperator_follows :
    Follows env ok (typeOperator n) (Needs.ofWant n .word ++ Needs.must n .type)
      (Settled env.file) := by
  unfold typeOperator Needs.ofWant
  cases n.word?.bind TokenKind.text? with
  | some operator =>
    exact (child_follows hr n _).andThen fun inner hi => finish_follows (by simpa using hi)
  | none => exact (Follows.throw _).congr (by simp [Needs.fact])

lemma indexedAccessType_follows :
    Follows env ok (indexedAccessType n) (Needs.must n .objectType ++ Needs.must n .indexType)
      (Settled env.file) := by
  refine (child_follows hr n _).bind fun object ho => ?_
  exact (child_follows hr n _).andThen fun index hi => finish_follows (by simp_all)

lemma mappedType_follows :
    Follows env ok (mappedType n)
      (Needs.within n .typeParameter (fun p => Needs.must p .name ++ Needs.must p .constraint) ++
        Needs.may n .nameType ++ Needs.may n .type) (Settled env.file) := by
  unfold mappedType require Needs.within
  rw [List.append_assoc]
  cases n.part? .typeParameter with
  | none => exact (Follows.abort (.throw _)).congr (by simp)
  | some p =>
  simp only [pure_bind, Option.elim_some, List.append_assoc]
  refine (child_follows hr p _).bind fun key hk => ?_
  refine (child_follows hr p _).bind fun constraint hc => ?_
  refine (child?_follows hr n _).bind fun nameType hn => ?_
  exact (child?_follows hr n _).andThen fun type ht => finish_follows (by simp_all)

lemma literalType_follows :
    Follows env ok (literalType n)
      (if (n.part? .type).any (·.isToken .nullKw) then [] else Needs.must n .type)
      (Settled env.file) := by
  have inner := child_follows hr n .type
  unfold literalType require
  cases h : n.part? .type with
  | some m =>
    simp only [Option.any_some]
    exact .ite (fun _ => finish_follows (by simp)) fun _ =>
      inner.andThen fun literal hl => finish_follows (by simpa using hl)
  | none =>
    simp only [Option.any_none, Needs.must, h]
    exact .abort (.throw _)

lemma namedTupleMember_follows :
    Follows env ok (namedTupleMember n) (Needs.must n .name ++ Needs.must n .type)
      (Settled env.file) := by
  refine (child_follows hr n _).bind fun label hl => ?_
  refine (child_follows hr n _).andThen fun type ht => ?_
  refine (finish_follows (by simp_all)).after fun member hm => .branch (.pure hm) ?_
  exact (restart_follows _ hm).after fun member hm => finish_follows (by simpa using hm)

lemma templateParts_follows :
    Follows env ok (templateParts n) (Needs.template n)
      (fun p => (∀ c ∈ p.1, Settled env.file c) ∧ ∀ c ∈ p.2, Settled env.file c) := by
  refine (child_follows hr n _).bind fun head hh => ?_
  have piece (span : Node) : Follows env ok
      (do
        let e ← child span .expression
        let piece ← child span .literal
        return (e, piece))
      (Needs.must span .expression ++ Needs.must span .literal)
      (fun p => Settled env.file p.1 ∧ Settled env.file p.2) :=
    (child_follows hr span _).bind fun e he => (child_follows hr span _).andThen fun p hp =>
      .pure ⟨he, hp⟩
  refine (Follows.mapM (n.partsOf .span) fun span _ => piece span).andThen fun rest hrest =>
    .pure ⟨?_, ?_⟩
  · simp only [List.mem_cons, List.mem_map]
    rintro c (rfl | ⟨p, hp, rfl⟩)
    · exact hh
    · exact (hrest.2 p hp).2
  · simp only [List.mem_map]
    rintro c ⟨p, hp, rfl⟩
    exact (hrest.2 p hp).1

lemma templateLiteralType_follows :
    Follows env ok (templateLiteralType n) (Needs.template n) (Settled env.file) :=
  (templateParts_follows hr n).andThen fun _ hp => finish_follows (by simpa using hp)

/-! ### Types from other modules -/

lemma importOptions_follows (argument attributes : Node) :
    Follows env ok (importOptions n argument attributes) [some ⟨n.kind, attributes⟩]
      (Settled env.file) := by
  refine (tokenAt_harmless _).after fun comma _ => (tokenAt_harmless _).after fun opening _ => ?_
  refine (tokenAt_harmless _).after fun word _ => (tokenAt_harmless _).after fun after _ => ?_
  extract_lets name rest
  refine .via rest (fun closing => ?_) fun hrest => .branch ?_ (hrest _)
  · refine (make_follows (by simp [identifierParts])).after fun key hk => ?_
    refine (convertPart_follows hr n _ _).andThen fun value hv => ?_
    exact (make_follows (by simp [propertyParts, hk, hv])).after fun property hp =>
      make_follows (by simpa using hp)
  · have closing : Harmless env ok (Prod.snd <$> tokenAt after.2.stop) :=
      (tokenAt_harmless _).map fun _ _ => trivial
    exact closing.after fun closing _ => hrest closing

lemma importType_follows :
    Follows env ok (importType n)
      (Needs.must n .argument ++ (Needs.may n .attributes ++ (Needs.may n .qualifier ++
        Needs.listed n .typeArgument))) (Settled env.file) := by
  refine (tokensOf_harmless n).after fun whole _ => ?_
  extract_lets rest
  refine .via rest (fun r => ?_) fun hrest => .branch ?_ (hrest _)
  · unfold rest require Needs.must
    cases n.part? .argument with
    | none => exact (Follows.abort (.throw _)).congr (by simp)
    | some m =>
      simp only [pure_bind, Option.map_some]
      refine (convertPart_follows hr n m _).bind fun argument ha => ?_
      refine (optional_follows n _ fun attributes =>
        importOptions_follows hr n m attributes).bind fun options ho => ?_
      refine (child?_follows hr n _).bind fun qualifier hq => ?_
      refine (typeArguments?_follows hr n).andThen fun args hargs => ?_
      refine (make_follows (by simp_all)).after fun type ht => ?_
      exact .branch (finish_follows (by simpa using ht)) (.pure ht)
  · exact (tokenAt_harmless _).after fun _ _ => (tokenAt_harmless _).after fun _ _ => hrest _

end Types

end EstreeLint.Estree.Convert
