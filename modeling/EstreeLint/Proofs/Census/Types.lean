import EstreeLint.Proofs.Census.Spends

/-!
The rules for tokens and for types spend what they convert.
-/

namespace EstreeLint.Estree.Convert

variable {env : Env}

/-! ### Tokens -/

section Leaf

variable {n : Node} (hs : SitedIn env.file n) (k : TokenKind)

include hs

lemma literal_spends : Spends env 0 (literal n k) (Proper env.file) := by
  refine .after (tokensOf_looks hs) fun r _ => .after (sourceOf_looks r) fun raw _ => ?_
  refine finish_spends hs ?_ (.plain rfl) ?_ <;> split <;> simp [literalParts]

lemma templateElement_spends : Spends env 0 (templateElement n k) (Proper env.file) := by
  refine .after (tokensOf_looks hs) fun r _ => .after (sourceOf_looks _) fun raw _ => ?_
  exact finish_spends hs (by simp) (.plain rfl) (by simp)

lemma identifier_spends : Spends env 0 (identifier n) (Proper env.file) :=
  .ofRead (.branch (finish_spends hs (by simp) (.plain rfl) (by simp))
    (finish_spends hs (by simp [identifierParts]) (.plain rfl) (by simp)))

/-- Outside of type queries a name is bindable. -/
lemma identifier_bindable (hquery : env.place.inQuery = false) :
    Spends env 0 (identifier n) (fun a => Proper env.file a ∧ Bindable a) := by
  have hthis : ¬ ((n.nameText?.getD "" == "this" && env.place.inQuery) = true) := by simp [hquery]
  refine .ofRead (.ite (fun h => absurd h hthis) fun _ => ?_)
  exact finish_bindable (f := .name) hs (by simp [identifierParts]) rfl nofun (by decide) (by simp)

lemma jsxText_spends : Spends env 0 (jsxText n) (Proper env.file) :=
  .after (sourceOf_looks _) fun _ _ => make_spends (.between hs.pos hs.stop) (by simp)
    (.plain rfl) (by simp)

omit hs in
lemma soleField?_of_word {type : NodeType} (h : wordType? k = some type) :
    soleField? type = none := by
  unfold wordType? at h
  split at h <;> cases h <;> rfl

lemma token_spends : Spends env 0 (token n k) (Proper env.file) := by
  unfold token
  split
  case h_1 => exact identifier_spends hs
  case h_2 => exact finish_spends hs (by simp) (.plain rfl) (by simp)
  case h_3 | h_4 | h_5 | h_6 | h_7 | h_8 | h_9 => exact literal_spends hs _
  case h_10 =>
    exact (templateElement_spends hs _).bind fun quasi hq => finish_spends hs (by simpa using hq)
      (.plain rfl) (by simp)
  case h_11 | h_12 | h_13 => exact templateElement_spends hs _
  case h_14 | h_15 => exact jsxText_spends hs
  case h_16 =>
    split
    · exact finish_spends hs (by simp) (.plain (soleField?_of_word _ ‹_›)) (by simp)
    · exact .throw _

end Leaf

/-! ### Marks and lists around types -/

section Types

variable (hr : Counts env) {n : Node} (hs : SitedIn env.file n)

include hr hs

lemma declaredType?_spends :
    Spends env 0 (declaredType? n) (fun o => ∀ c ∈ o, Proper env.file c) := by
  refine .mapM? _ fun type htype => ?_
  refine (convertPart_spends hr n false (hs.of_part? htype)).bind fun inner hi => ?_
  exact make_spends (.between (hs.role htype) hi.regular.bounds.stop) (by simpa using hi)
    (.plain rfl) (by simp)

omit hr in
lemma angleRange_looks {l : NodeList} {r : Role} (hl : n.list? r = some l)
    (hopens : Grammar.opensList n.kind r = true) : Looks env (angleRange l) (SpanCut env.file) := by
  obtain ⟨hstop, hopened⟩ := hs.anchored.lists r l hl
  refine (findToken_looks _ fun _ => hstop).bind fun close hc => .pure ?_
  exact .between (hopened hopens) (hc.stop.max fun _ => hstop)

lemma angleList?_spends (r : Role) (type : NodeType) (hopens : Grammar.opensList n.kind r = true)
    (htype : soleField? type = none) :
    Spends env 0 (angleList? n r type) (fun o => ∀ c ∈ o, Proper env.file c) := by
  refine .mapM? _ fun l hl => (children_spends hr hs r).bind fun params hp => ?_
  exact .after (angleRange_looks hs hl hopens) fun range hrange =>
    make_spends hrange (by simpa using hp) (.plain htype) (by simp)

lemma typeParameters?_spends :
    Spends env 0 (typeParameters? n) (fun o => ∀ c ∈ o, Proper env.file c) :=
  angleList?_spends hr hs _ _ rfl rfl

lemma typeArguments?_spends :
    Spends env 0 (typeArguments? n) (fun o => ∀ c ∈ o, Proper env.file c) :=
  angleList?_spends hr hs _ _ rfl rfl

lemma wrappedType_spends (type : NodeType) (f : Field) (ht : soleField? type = none) :
    Spends env 0 (wrappedType n type f) (Proper env.file) :=
  (child_spends hr hs _).bind fun inner hi => finish_spends hs (by simpa using hi) (.plain ht)
    (by simp)

lemma listedTypes_spends (type : NodeType) (f : Field) (ht : soleField? type = none) :
    Spends env 0 (listedTypes n type f) (Proper env.file) :=
  (children_spends hr hs _).bind fun cs hc => finish_spends hs (by simpa using hc) (.plain ht)
    (by simp)

/-! ### References and predicates -/

lemma typeParameter_spends : Spends env 0 (typeParameter n) (Proper env.file) := by
  refine (child_spends hr hs _).bind fun name hname => ?_
  refine (child?_spends hr hs _).bind fun constraint hc => ?_
  exact (child?_spends hr hs _).bind fun default hd => finish_spends hs (by simp_all)
    (.plain rfl) (by simp [add_comm, add_left_comm, add_assoc])

lemma typeReference_spends : Spends env 0 (typeReference n) (Proper env.file) := by
  refine (child_spends hr hs _).bind fun name hname => ?_
  exact (typeArguments?_spends hr hs).bind fun args ha => finish_spends hs (by simp_all)
    (.plain rfl) (by simp)

lemma typeQuery_spends : Spends env 0 (typeQuery n) (Proper env.file) := by
  refine (child_spends hr hs _).bind fun name hname => ?_
  exact (typeArguments?_spends hr hs).bind fun args ha => finish_spends hs (by simp_all)
    (.plain rfl) (by simp [add_comm])

lemma typePredicate_spends : Spends env 0 (typePredicate n) (Proper env.file) := by
  refine (child_spends hr hs _).bind fun name hname => ?_
  refine (child?_spends hr hs _).bind fun type ht => ?_
  have mark : Spends env (ids type)
      (type.mapM fun inner => make none inner.range .tsTypeMark [.one .type inner])
      (fun o => ∀ c ∈ o, Proper env.file c) := by
    cases type with
    | none => exact .pure rfl (by simp)
    | some inner =>
      have hi := ht inner rfl
      exact (make_spends hi.regular.bounds (by simpa using hi)
        (.plain rfl) (by simp)).map (fun _ => rfl) fun m hm => by
        simpa using hm
  exact mark.sub rfl fun type ht => finish_spends hs (by simp_all) (.plain rfl) (by simp [add_comm])

lemma qualifiedName_spends : Spends env 0 (qualifiedName n) (Proper env.file) := by
  refine (child_spends hr hs _).bind fun left hl => ?_
  exact (child_spends hr hs _).bind fun right hr => finish_spends hs (by simp_all)
    (.plain rfl) (by simp [add_comm])

/-! ### Composite types -/

lemma conditionalType_spends : Spends env 0 (conditionalType n) (Proper env.file) := by
  refine (child_spends hr hs _).bind fun checked hc => ?_
  refine (child_spends hr hs _).bind fun bound hb => ?_
  refine (child_spends hr hs _).bind fun whenTrue ht => ?_
  exact (child_spends hr hs _).bind fun whenFalse hf => finish_spends hs (by simp_all)
    (.plain rfl) (by simp [add_comm, add_assoc])

lemma typeOperator_spends : Spends env 0 (typeOperator n) (Proper env.file) := by
  unfold typeOperator
  cases n.word?.bind TokenKind.text? with
  | some operator =>
    exact (child_spends hr hs _).bind fun inner hi => finish_spends hs (by simpa using hi)
      (.plain rfl) (by simp)
  | none => exact .throw _

lemma indexedAccessType_spends : Spends env 0 (indexedAccessType n) (Proper env.file) := by
  refine (child_spends hr hs _).bind fun object ho => ?_
  exact (child_spends hr hs _).bind fun index hi => finish_spends hs (by simp_all)
    (.plain rfl) (by simp)

lemma mappedType_spends : Spends env 0 (mappedType n) (Proper env.file) := by
  refine require_spends fun param hparam => ?_
  refine (child_spends hr (hs.of_part? hparam) _).bind fun key hk => ?_
  refine (child_spends hr (hs.of_part? hparam) _).bind fun constraint hc => ?_
  refine (child?_spends hr hs _).bind fun nameType hn => ?_
  exact (child?_spends hr hs _).bind fun type ht => finish_spends hs (by simp_all)
    (.plain rfl) (by simp [add_comm, add_left_comm, add_assoc])

lemma literalType_spends : Spends env 0 (literalType n) (Proper env.file) :=
  require_spends fun _ hinner => .branch (finish_spends (hs.of_part? hinner) (by simp)
    (.plain rfl) (by simp))
    ((child_spends hr hs _).bind fun literal hl => finish_spends hs (by simpa using hl)
      (.plain rfl) (by simp))

lemma namedTupleMember_spends : Spends env 0 (namedTupleMember n) (Proper env.file) := by
  refine (child_spends hr hs _).bind fun label hl => (child_spends hr hs _).bind fun type ht => ?_
  refine (finish_spends hs (by simp_all)
    (.plain rfl) (by simp)).andThen fun member hm => .branch (.pure rfl hm) ?_
  refine (restart_spends hm hl.regular.bounds.start).andThen fun member hm => ?_
  exact finish_spends hs (by simpa using hm) (.plain rfl) (by simp)

lemma templateParts_spends :
    Spends env 0 (templateParts n)
      (fun p => (∀ c ∈ p.1, Proper env.file c) ∧ ∀ c ∈ p.2, Proper env.file c) := by
  refine (child_spends hr hs _).bind fun head hh => ?_
  have piece (span : Node) (hspan : SitedIn env.file span) : Spends env 0
      (do
        let e ← child span .expression
        let piece ← child span .literal
        return (e, piece))
      (fun p => Proper env.file p.1 ∧ Proper env.file p.2) :=
    (child_spends hr hspan _).bind fun e he => (child_spends hr hspan _).bind fun p hp =>
      .pure (by simp [add_comm]) ⟨he, hp⟩
  refine (Spends.mapM (n.partsOf .span) fun span h => piece span (hs.of_partsOf h)).bind
    fun rest hrest => .pure ?_ ⟨?_, ?_⟩
  · rw [ids_pair, ids_cons, ← ids_unzip rest]
    abel
  · simp only [List.mem_cons, List.mem_map]
    rintro c (rfl | ⟨p, hp, rfl⟩)
    · exact hh
    · exact (hrest p hp).2
  · simp only [List.mem_map]
    rintro c ⟨p, hp, rfl⟩
    exact (hrest p hp).1

lemma templateLiteralType_spends : Spends env 0 (templateLiteralType n) (Proper env.file) :=
  (templateParts_spends hr hs).bind fun (_, _) hp => finish_spends hs (by simpa using hp)
    (.plain rfl) (by simp)

/-! ### Types from other modules -/

omit hs in
lemma importOptions_spends {argument attributes : Node} (hargument : SitedIn env.file argument)
    (hattributes : SitedIn env.file attributes) :
    Spends env 0 (importOptions n argument attributes) (Proper env.file) := by
  refine .after (tokenAt_looks hargument.stop) fun comma hcomma => ?_
  refine .after (tokenAt_looks hcomma.stop) fun opening hopening => ?_
  refine .after (tokenAt_looks hopening.stop) fun word hword => ?_
  refine .after (tokenAt_looks hattributes.stop) fun after hafter => ?_
  extract_lets name rest
  have hrest (closing : Span) (hclosing : SpanCut env.file closing) :
      Spends env 0 (rest closing) (Proper env.file) := by
    refine (make_spends hword (by simp [identifierParts])
      (.plain rfl) (by simp)).bind fun key hk => ?_
    refine (convertPart_spends hr n false hattributes).bind fun value hv => ?_
    refine .andThen (make_spends (.between hword.start hattributes.stop) ?_
      (.plain rfl) (by simp [add_comm])) fun property hp => ?_
    · simp [propertyParts, hk, hv]
    · exact make_spends (.between hopening.start hclosing.stop) (by simpa using hp)
        (.plain rfl) (by simp)
  refine .branch ?_ (hrest _ hafter)
  have hclosing : Looks env (Prod.snd <$> tokenAt after.2.stop) (SpanCut env.file) :=
    (tokenAt_looks hafter.stop).map fun _ h => h
  exact .after hclosing hrest

lemma importType_spends : Spends env 0 (importType n) (Proper env.file) := by
  refine .after (tokensOf_looks hs) fun whole hwhole => ?_
  extract_lets rest
  have hrest (r : Span) (hrange : SpanCut env.file r) :
      Spends env 0 (rest r) (Proper env.file) := by
    refine require_spends fun argument harg => ?_
    have hargument := hs.of_part? harg
    refine (convertPart_spends hr n false hargument).bind fun argument ha => ?_
    refine (Spends.mapM? _ fun attributes hattr =>
      importOptions_spends hr hargument (hs.of_part? hattr)).bind fun options ho => ?_
    refine (child?_spends hr hs _).bind fun qualifier hq => ?_
    refine (typeArguments?_spends hr hs).bind fun args hargs => ?_
    refine (make_spends hrange (by simp_all) (.plain rfl) (by simp [add_comm, add_assoc])).andThen
      fun type ht => ?_
    exact .branch (finish_spends hs (by simpa using ht) (.plain rfl) (by simp)) (.pure rfl ht)
  refine .branch ?_ (hrest _ hwhole.2)
  refine .after (tokenAt_looks hwhole.2.start) fun typeOf htypeOf => ?_
  refine .after (tokenAt_looks htypeOf.stop) fun word hword => ?_
  exact hrest _ (.between hword.start hs.stop)

end Types

end EstreeLint.Estree.Convert
