import EstreeLint.Proofs.Census.Patterns

/-!
The rules for declarations and modules spend what they convert.
-/

namespace EstreeLint.Estree.Convert

variable {env : Env} (hr : Counts env) {n : Node} (hs : SitedIn env.file n)

include hr hs

/-! ### Exported declarations and bodies -/

omit hr in
lemma word_stop {k : TokenKind} {word : Node} (h : (k, word) ∈ words n) :
    CutAt env.file word.stop := by
  obtain ⟨m, hm, hword⟩ := List.mem_filterMap.1 h
  obtain ⟨_, -, heq⟩ := Option.map_eq_some_iff.1 hword
  obtain ⟨-, rfl⟩ := Prod.mk.inj heq
  exact SitedIn.stop (hs.of_partsOf hm)

omit hr in
lemma wrapExport_spends {declaration : EsNode} (h : Proper env.file declaration) :
    Spends env (ids declaration) (wrapExport n declaration) (Proper env.file) := by
  have hstop {k : TokenKind} {word : Node} : (k, word) ∈ words n → CutAt env.file word.stop :=
    word_stop hs
  unfold wrapExport
  split
  · next exportWord others hwords =>
    rw [hwords] at hstop
    refine .after (tokenAt_looks (hstop (List.mem_cons_self ..))) fun after hafter => ?_
    obtain ⟨_, after⟩ := after
    dsimp -zeta only
    extract_lets default? rest
    have hrest (start : Nat) (hstart : CutAt env.file start) :
        Spends env (ids declaration) (rest start) (Proper env.file) := by
      refine (restart_spends h hstart).andThen fun inner hi => ?_
      have hrange := SpanCut.between hafter.start hi.regular.bounds.stop
      refine .branch (make_spends hrange ?_ (.plain rfl) (by simp)) (make_spends hrange ?_
        (.plain rfl) (by simp)) <;> simpa using hi
    cases hdefault : default? with
    | some word =>
      have hmem : (TokenKind.defaultKw, word) ∈ others := by
        unfold default? at hdefault
        split at hdefault
        · cases hdefault
          exact List.mem_cons_self ..
        · cases hdefault
      refine .after (tokenAt_looks (hstop (List.mem_cons_of_mem _ hmem))) fun token htoken => ?_
      exact hrest _ htoken.start
    | none => exact hrest _ hafter.start
  · exact .pure rfl h

omit hr in
/-- What is done with a declaration once it has been made. -/
lemma exported_spends {p : Convert EsNode} {held : Multiset Nat}
    (h : Spends env held p (Proper env.file)) :
    Spends env held (p >>= wrapExport n) (Proper env.file) :=
  h.andThen fun _ hd => wrapExport_spends hs hd

omit hr hs in
lemma directiveText?_looks (statement : Node) :
    Looks env (directiveText? statement) (fun _ => True) := by
  unfold directiveText?
  refine .branch (.pure trivial) ?_
  split
  · next e _ =>
      have htokens : Looks env (tokensOf e) (fun _ => True) := .ofRead (.pure trivial)
      exact .branch (.pure trivial) (htokens.bind fun _ _ =>
        (sourceOf_looks _).bind fun _ _ => .pure trivial)
  · exact .pure trivial

omit hr hs in
/-- The children of a statement make room for a directive. -/
lemma ids_setDirective {a : EsNode} {v : Value} (h : Proper env.file a)
    (ht : a.type = .expressionStatement) : ids (a.setValue .directive v) = ids a := by
  have hfield : ∀ c ∈ a.children, c.field = .expression :=
    h.regular.seated.fields .expression (by rw [ht]; rfl)
  have hvacant : Vacant a .directive := fun c hc he => by
    rw [hfield c hc] at he
    cases he
  exact (ids_setSlot_vacant (inOrder_of_field hfield) hvacant).trans (by simp)

lemma bodyFrom_spends (prologue : Bool) {ms : List Node} (hms : ∀ m ∈ ms, m ∈ n.children) :
    Spends env 0 (bodyFrom n prologue ms) (fun cs => ∀ c ∈ cs, Proper env.file c) := by
  induction ms generalizing prologue with
  | nil => exact .pure rfl (by simp)
  | cons m ms ih =>
    have hm : SitedIn env.file m := hs.of_mem (hms m (by simp))
    refine Spends.bind (convertPart_spends hr n false hm) fun converted hc => ?_
    extract_lets rest
    have hrest (text? : Option String) :
        Spends env (ids converted + 0) (rest text?) (fun cs => ∀ c ∈ cs, Proper env.file c) := by
      refine (ih _ fun m hm => hms m (by simp [hm])).bind fun cs hcs => ?_
      cases text? with
      | none => exact .pure (by simp [add_comm]) (by simpa using ⟨hc, hcs⟩)
      | some text =>
        by_cases ht : converted.type = .expressionStatement
        · have hids := ids_setDirective (v := .text text) hc ht
          have hset := hc.setValue (f := .directive) (v := .text text) ht
          exact .pure (by simp [ht, hids, add_comm]) (by simpa [ht] using ⟨hset, hcs⟩)
        · exact .pure (by simp [ht, add_comm]) (by simpa [ht] using ⟨hc, hcs⟩)
    exact .branch (.after (directiveText?_looks m) fun t _ => hrest t) (hrest none)

lemma body_spends (r : Role) (prologue : Bool) :
    Spends env 0 (body n r prologue) (fun cs => ∀ c ∈ cs, Proper env.file c) :=
  bodyFrom_spends hr hs prologue fun _ hm => (List.mem_filter.1 hm).1

lemma wrappedExpression_spends (type : NodeType) (f : Field)
    (ht : ∀ g, soleField? type = some g → g = f) :
    Spends env 0 (wrappedExpression n type f) (Proper env.file) :=
  (child_spends hr hs _).bind fun _ he => finish_spends hs (by simpa using he) (.one ht) (by simp)

/-! ### Namespaces -/

omit hs in
lemma qualify_spends {id : EsNode} {ms : List Node} (h : Proper env.file id)
    (hms : ∀ m ∈ ms, SitedIn env.file m) :
    Spends env (ids id) (qualify id ms) (Proper env.file) := by
  induction ms generalizing id with
  | nil => exact .pure rfl h
  | cons m ms ih =>
    refine (child_spends hr (hms m (by simp)) _).bind fun right hright => ?_
    refine (make_spends (.between h.regular.bounds.start hright.regular.bounds.stop)
      (by simp [h, hright]) (.plain rfl) (by simp [add_comm])).andThen fun joined hj => ?_
    exact ih hj fun m hm => hms m (by simp [hm])

omit hr in
lemma innerDeclarations_sited (depth : Nat) :
    ∀ m ∈ innerDeclarations depth n, SitedIn env.file m := by
  induction depth generalizing n with
  | zero => exact nofun
  | succ depth ih =>
    unfold innerDeclarations
    split
    · next inner hinner =>
      split
      · have hsited := hs.of_part? hinner
        rintro m (_ | ⟨_, hm⟩)
        · exact hsited
        · exact ih hsited m hm
      · exact nofun
    · exact nofun

lemma moduleDeclaration_spends : Spends env 0 (moduleDeclaration n) (Proper env.file) := by
  refine require_spends fun name hname => ?_
  extract_lets inner kind
  have hinner : ∀ m ∈ inner, SitedIn env.file m := by
    unfold inner
    split
    · exact nofun
    · exact innerDeclarations_sited hs _
  have hlast : SitedIn env.file (inner.getLastD n) := by
    rcases List.mem_cons.1 (List.getLastD_mem_cons (l := inner) (a := n)) with h | h
    · rwa [h]
    · exact hinner _ h
  refine (child_spends hr hs _).bind fun id hid => ?_
  rw [add_zero]
  refine (qualify_spends hr hid hinner).andThen fun id hid => ?_
  refine (child?_spends hr hlast _).bind fun body hb => ?_
  exact exported_spends hs (finish_spends hs (by simp_all) (.plain rfl) (by simp))

lemma moduleBlock_spends : Spends env 0 (moduleBlock n) (Proper env.file) :=
  (body_spends hr hs _ _).bind fun _ hb => finish_spends hs (by simpa using hb)
    (.plain rfl) (by simp)

/-! ### Imports -/

omit hs in
lemma importSpecifiers_spends {clause : Node} (hclause : SitedIn env.file clause) :
    Spends env 0 (importSpecifiers n clause) (fun cs => ∀ c ∈ cs, Proper env.file c) := by
  unfold importSpecifiers
  extract_lets rest
  have hrest (first : List EsNode) (h : ∀ c ∈ first, Proper env.file c) :
      Spends env (ids first) (rest first) (fun cs => ∀ c ∈ cs, Proper env.file c) := by
    have done (more : List EsNode) (hm : ∀ c ∈ more, Proper env.file c) :
        Spends env (ids more + ids first) (pure (first ++ more) : Convert (List EsNode))
          (fun cs => ∀ c ∈ cs, Proper env.file c) := by
      refine .pure (by simp [add_comm]) fun c hc => ?_
      rcases List.mem_append.1 hc with hc | hc
      · exact h c hc
      · exact hm c hc
    unfold rest
    split
    · simpa using done [] (by simp)
    · next bindings hb =>
      have hbindings := hclause.of_part? hb
      refine .branch ?_ ((children_spends hr hbindings _).bind done)
      exact (convertPart_spends hr clause false hbindings).bind fun c hc => by
        simpa using done [c] (by simpa using hc)
  split
  · refine (convertPart_spends hr n false hclause).bind fun c hc => ?_
    simpa using hrest [c] (by simpa using hc)
  · exact hrest [] (by simp)

lemma moduleAttributes_spends :
    Spends env 0 (moduleAttributes n) (fun cs => ∀ c ∈ cs, Proper env.file c) := by
  unfold moduleAttributes
  split
  · exact children_spends hr (hs.of_part? ‹_›) _
  · exact .pure rfl (by simp)

lemma importDeclaration_spends : Spends env 0 (importDeclaration n) (Proper env.file) := by
  unfold importDeclaration
  extract_lets clause? rest
  have hrest (specifiers : List EsNode) (h : ∀ c ∈ specifiers, Proper env.file c) :
      Spends env (ids specifiers) (rest specifiers) (Proper env.file) := by
    refine (child_spends hr hs _).bind fun source hsource => ?_
    exact (moduleAttributes_spends hr hs).bind fun attributes ha => finish_spends hs (by simp_all)
      (.plain rfl) (by simp)
  cases hclause : clause? with
  | some clause => exact (importSpecifiers_spends hr (hs.of_part? hclause)).andThen hrest
  | none => exact hrest [] (by simp)

lemma importDefault_spends : Spends env 0 (importDefault n) (Proper env.file) :=
  (child_spends hr hs _).bind fun _ hl => make_spends hl.regular.bounds (by simpa using hl)
    (.plain rfl) (by simp)

lemma namespaceImport_spends : Spends env 0 (namespaceImport n) (Proper env.file) :=
  (child_spends hr hs _).bind fun _ hl => finish_spends hs (by simpa using hl)
    (.plain rfl) (by simp)

lemma givenName_spends : Spends env 0 (givenName n) (Proper env.file) := child_spends hr hs _

lemma importSpecifier_spends : Spends env 0 (importSpecifier n) (Proper env.file) := by
  refine (givenName_spends hr hs).bind fun imported hi => ?_
  exact (child_spends hr hs _).bind fun localName hl => finish_spends hs (by simp_all)
    (.plain rfl) (by simp [add_comm])

lemma exportSpecifier_spends : Spends env 0 (exportSpecifier n) (Proper env.file) := by
  refine (givenName_spends hr hs).bind fun localName hl => ?_
  exact (child_spends hr hs _).bind fun exported he => finish_spends hs (by simp_all)
    (.plain rfl) (by simp)

lemma importAttribute_spends : Spends env 0 (importAttribute n) (Proper env.file) := by
  refine (child_spends hr hs _).bind fun key hk => ?_
  exact (child_spends hr hs _).bind fun value hv => finish_spends hs (by simp_all)
    (.plain rfl) (by simp [add_comm])

lemma attributesObject_spends : Spends env 0 (attributesObject n) (Proper env.file) := by
  have entry (e : Node) (he : SitedIn env.file e) : Spends env 0
      (do
        let key ← child e .name
        let value ← child e .value
        finish e .property
          (propertyParts (.flag .isComputed false) key "init" false false false value))
      (Proper env.file) := by
    refine (child_spends hr he _).bind fun key hk => (child_spends hr he _).bind fun value hv => ?_
    exact finish_spends he (by simp [propertyParts, hk, hv]) (.plain rfl) (by simp [add_comm])
  refine (Spends.mapM (n.partsOf .element) fun e h => entry e (hs.of_partsOf h)).bind
    fun properties hp => ?_
  refine .after (tokensOf_looks hs) fun r hrange => ?_
  refine .after (findToken_looks _ hrange.2.start) fun opening hopening => ?_
  exact make_spends (.between hopening.start hs.stop) (by simpa using hp) (.plain rfl) (by simp)

lemma importEquals_spends : Spends env 0 (importEquals n) (Proper env.file) := by
  refine (child_spends hr hs _).bind fun id hid => ?_
  refine (child_spends hr hs _).bind fun reference href => ?_
  exact exported_spends hs (finish_spends hs (by simp_all) (.plain rfl) (by simp [add_comm]))

/-! ### Exports -/

lemma namedExports_spends {clause : Node} (hclause : SitedIn env.file clause) :
    Spends env 0 (namedExports n clause) (Proper env.file) := by
  refine (children_spends hr hclause _).bind fun specifiers hspecifiers => ?_
  refine (child?_spends hr hs _).bind fun source hsource => ?_
  exact (moduleAttributes_spends hr hs).bind fun attributes ha => finish_spends hs (by simp_all)
    (.plain rfl) (by simp)

lemma exportAll_spends : Spends env 0 (exportAll n) (Proper env.file) := by
  refine (Spends.mapM? _ fun clause h => child_spends hr (hs.of_part? h) .name).bind
    fun exported he => ?_
  refine (child_spends hr hs _).bind fun source hsource => ?_
  exact (moduleAttributes_spends hr hs).bind fun attributes ha => finish_spends hs (by simp_all)
    (.plain rfl) (by simp [add_comm])

lemma exportDeclaration_spends : Spends env 0 (exportDeclaration n) (Proper env.file) := by
  unfold exportDeclaration
  split
  · exact .branch (namedExports_spends hr hs (hs.of_part? ‹_›)) (exportAll_spends hr hs)
  · exact exportAll_spends hr hs

lemma exportAssignment_spends : Spends env 0 (exportAssignment n) (Proper env.file) := by
  refine (child_spends hr hs _).bind fun e he => ?_
  exact .branch (finish_spends hs (by simpa using he) (.plain rfl) (by simp))
    (finish_spends hs (by simpa using he) (.plain rfl) (by simp))

lemma namespaceExport_spends : Spends env 0 (namespaceExport n) (Proper env.file) :=
  (child_spends hr hs _).bind fun _ hid => finish_spends hs (by simpa using hid)
    (.plain rfl) (by simp)

end EstreeLint.Estree.Convert
