import EstreeLint.Proofs.Census.Expressions

/-!
The rules for parameters, patterns and elements spend what they convert.

A binding is changed after it was made: its type, its question mark and its decorators go into
fields that nothing has stood in, so that no node is lost.
-/

namespace EstreeLint.Estree.Convert

variable {env : Env} (hr : Counts env) {n : Node} (hs : SitedIn env.file n)

/-! ### Bindings that are given a type, a mark or decorators -/

section Bindings

variable {a : EsNode}

/-- What a binding is settled from after an edit. -/
lemma resettle_spends {free : List Field} (hb : Binding free a)
    (hc : ∀ c ∈ a.children, Proper env.file c) (hrange : SpanCut env.file a.range) :
    Spends env (ids a) (resettle a) (fun b => Proper env.file b ∧ Binding free b) :=
  .ofRead (.pure (ids_settle _ _)
    ⟨proper_settle hc hrange (.plain hb.plain), hb.relabel fun _ => rfl⟩)

lemma declare_spends {type : Option EsNode} {question : Option Span} (h : Proper env.file a)
    (hb : Bindable a) (ht : ∀ c ∈ type, Proper env.file c)
    (hq : ∀ r ∈ question, SpanCut env.file r) :
    Spends env (ids a + ids type) (declare a type question)
      (fun b => Proper env.file b ∧ Binding [.decorators] b) := by
  unfold declare
  extract_lets binds typed marked
  have hbinds : binds = true := hb.type
  -- first the type goes in, and then the mark, each into a field of its own
  obtain ⟨hids, hproper, htyped⟩ : ids typed = ids a + ids type ∧ Proper env.file typed ∧
      Binding [.optional, .decorators] typed := by
    unfold typed
    cases type with
    | none => exact ⟨by simp, h, hb.tail⟩
    | some t =>
      simp only [hbinds, if_true]
      exact ⟨hb.ids_setSlot.trans (by simp), h.setSlot (by simpa using ht) hb.plain,
        hb.setSlot (by decide)⟩
  rw [← hids]
  unfold marked
  cases question with
  | none => exact resettle_spends htyped.tail (fun _ => hproper.child) hproper.regular.bounds
  | some r =>
    simp only [hbinds, if_true]
    have hvalue : Binding [.decorators] (typed.setValue .optional (.flag true)) :=
      htyped.setSlot (by decide)
    have hchildren : ∀ c ∈ (typed.setValue .optional (.flag true)).children, Proper env.file c :=
      children_setSlot_proper (fun _ => hproper.child) (by simp)
    have hids : ids (typed.setValue .optional (.flag true)) = ids typed :=
      htyped.ids_setSlot.trans (by simp)
    rw [← hids, ← ids_mapLabel (g := fun l => { l with range := l.range.widen r }) fun _ => rfl]
    exact resettle_spends (hvalue.relabel fun _ => rfl) hchildren
      (hproper.regular.bounds.widen (hq r rfl))

lemma decorate_spends {ds : List EsNode} (h : Proper env.file a) (hdec : Decorable a)
    (hd : ∀ d ∈ ds, Proper env.file d) :
    Spends env (ids ds + ids a) (decorate a ds) (Proper env.file) := by
  have htype : (isBindingType a.type || a.type == .tsParameterProperty) = true := by
    simpa using hdec.type
  unfold decorate
  rw [htype]
  cases ds with
  | nil => exact .pure (by simp) h
  | cons d ds =>
    refine .ofRead (.pure ?_ ?_)
    · rw [ids_settle, add_comm]
      exact ids_setSlot_vacant hdec.ordered hdec.vacant
    · exact proper_settle (children_setSlot_proper (fun _ => h.child) hd) h.regular.bounds
        (.plain (soleField?_of_decorable hdec.type))

/-- A new node that can be given decorators. -/
lemma finish_decorable {type : NodeType} {parts : List Part} {held : Multiset Nat}
    (hs : SitedIn env.file n) (hparts : PartsHold (Proper env.file) parts)
    (htype : isBindingType type = true ∨ type = .tsParameterProperty) (fs : List Field)
    (hfields : (parts.flatMap Part.nodes).map Tree.field = fs)
    (hordered : fs.Pairwise (·.number ≤ ·.number)) (hvacant : .decorators ∉ fs)
    (hids : ids parts = held) :
    Spends env held (finish n type parts) (fun a => Proper env.file a ∧ Decorable a) := by
  subst hfields
  refine finish_spends_as hs hids fun l ht hl => ?_
  rw [← ht] at htype
  refine ⟨proper_node hparts hs.range hl (.plain (soleField?_of_decorable htype)), htype,
    (List.pairwise_map (f := Tree.field)).1 hordered, fun c hc h => ?_⟩
  exact hvacant (List.mem_map.2 ⟨c, hc, h⟩)

end Bindings

include hr hs

/-- The name that a declaration binds. -/
lemma name_spends (isTarget : Bool)
    (hk : n.isForm .parameter = true ∨ n.isForm .variableDeclaration = true) :
    Spends env 0 (require n .name >>= (convertPart n · isTarget))
      (fun a => Proper env.file a ∧ Bindable a) := by
  obtain ⟨m, hm, hbinds⟩ := hs.anchored.named hk
  have hquery : (env.place.below n isTarget).inQuery = false := by
    rcases hk with hk | hk <;> simp_all [Place.below, Tree.isForm]
  refine require_spends fun m' hm' => ?_
  obtain rfl : m = m' := Option.some.inj (hm.symm.trans hm')
  exact (convertPart_outcome hr n isTarget (hs.of_part? hm)).weaken fun a h =>
    ⟨h.proper, h.binding hbinds hquery⟩

lemma parameter_spends (hk : n.isForm .parameter = true) :
    Spends env 0 (parameter n) (fun a => Proper env.file a ∧ Decorable a) := by
  refine (name_spends hr hs false (.inl hk)).bind fun name hname => ?_
  refine (declaredType?_spends hr hs).bind fun type ht => .ofRead ?_
  extract_lets question isProperty rest
  have hquestion : ∀ r ∈ question, SpanCut env.file r := by
    rintro r hrange
    obtain ⟨mark, hmark, rfl⟩ := Option.map_eq_some_iff.1 hrange
    exact SitedIn.range (hs.of_part? hmark)
  have hrest (result : EsNode) (h : Proper env.file result ∧ Decorable result) :
      Spends env (ids result) (rest result) (fun a => Proper env.file a ∧ Decorable a) := by
    refine .branch (finish_decorable hs ?_ (.inr rfl) [.parameter] ?_ (by decide) (by decide)
      (by simp)) (.pure rfl h)
    · simpa [accessibility] using h.1
    · simp [accessibility]
  have hdeclared := declare_spends hname.1 hname.2 ht hquestion
  have hheld : ids type + (ids name + 0) = ids name + ids type := by simp [add_comm]
  rw [hheld]
  refine .branch ?_ (.branch ?_ ?_)
  · have hwhole : Spends env (ids name) (finish n .restElement (restParts name))
        (fun a => Proper env.file a ∧ Bindable a) :=
      finish_bindable hs (by simpa [restParts] using hname.1) rfl (f := .argument)
        (by simp [restParts]) (by decide) (by simp)
    refine hwhole.sub rfl fun whole hw => ?_
    exact (declare_spends hw.1 hw.2 ht hquestion).andThen fun a ha =>
      hrest a ⟨ha.1, ha.2.decorable⟩
  · refine hdeclared.andThen fun left hl => (child_spends hr hs _).bind fun right hright => ?_
    refine .andThen (finish_decorable hs ?_ (.inl rfl) [.left, .right] ?_ (by decide) (by decide)
      (by simp [add_comm])) fun whole hw => ?_
    · simp [assignmentParts, hl.1, hright]
    · simp [assignmentParts]
    · refine .branch ?_ (hrest whole hw)
      refine (restart_spends_as hw.1 hl.1.regular.bounds.start).andThen fun again ha =>
        hrest again ⟨ha.1, hw.2.of_same ha.2.1 ha.2.2⟩
  · exact hdeclared.andThen fun a ha => hrest a ⟨ha.1, ha.2.decorable⟩

/-- The parameters of a function, each with its decorators. -/
lemma parameters_spends :
    Spends env 0 (parameters n) (fun cs => ∀ c ∈ cs, Proper env.file c) := by
  refine .mapM _ fun param hparam => ?_
  have hsited := hs.of_partsOf hparam
  refine (convertPart_outcome hr n false hsited).bind fun converted hc => ?_
  refine (decorators_spends hr hsited).bind fun ds hd => ?_
  rw [add_zero]
  exact decorate_spends hc.proper (hc.parameter (hs.anchored.role .parameter param hparam)) hd

lemma objectBindingPattern_spends :
    Spends env 0 (objectBindingPattern n) (fun a => Proper env.file a ∧ Bindable a) := by
  refine (children_spends hr hs _).bind fun properties hp => ?_
  exact finish_bindable hs (by simpa using hp) rfl (f := .properties)
    (by simp) (by decide) (by simp)

lemma arrayBindingPattern_spends :
    Spends env 0 (arrayBindingPattern n) (fun a => Proper env.file a ∧ Bindable a) := by
  refine (childrenOrHoles_spends hr hs _ _).bind fun elements he => ?_
  exact finish_bindable hs (by simpa using he) rfl (f := .elements)
    (by simp [Part.nodes, Part.list, Part.flag]) (by decide) (by simp)

lemma arrayBinding_spends : Spends env 0 (arrayBinding n) (Proper env.file) := by
  refine (child_spends hr hs _).bind fun item hi => .branch ?_ (.branch ?_ ?_)
  · exact (child_spends hr hs _).bind fun right hright =>
      finish_spends hs (by simp [assignmentParts, hi, hright]) (.plain rfl) (by simp [add_comm])
  · exact finish_spends hs (by simpa [restParts] using hi) (.plain rfl) (by simp)
  · exact .pure (by simp) hi

lemma objectBinding_spends : Spends env 0 (objectBinding n) (Proper env.file) := by
  refine .branch ?_ ?_
  · exact (child_spends hr hs _).bind fun argument ha =>
      finish_spends hs (by simpa [restParts] using ha) (.plain rfl) (by simp)
  · refine (child_spends hr hs _).bind fun key hk => ?_
    have done (value : EsNode) (hv : Proper env.file value) :
        Spends env (ids value + (ids key + 0)) (finish n .property
          (propertyParts (isComputed n .propertyName) key "init" false false
            (n.part? .propertyName).isNone value)) (Proper env.file) :=
      finish_spends hs (by simp [propertyParts, isComputed, hk, hv]) (.plain rfl)
        (by simp [isComputed, add_comm])
    refine .branch ?_ ((child_spends hr hs _).bind done)
    refine require_spends fun m hm => ?_
    have hsited := hs.of_part? hm
    refine (convertPart_spends hr n false hsited).bind fun left hl => ?_
    refine (child_spends hr hs _).bind fun right hright => .ofRead ?_
    have hvalue : Spends env (ids left + ids right) (make none
        (Span.between (env.file.startOf m) right.range.stop) .assignmentPattern
        (assignmentParts left right)) (Proper env.file) :=
      make_spends (.between (SitedIn.start hsited) hright.regular.bounds.stop)
        (by simp [assignmentParts, hl, hright]) (.plain rfl) (by simp)
    exact hvalue.sub (by simp [add_comm, add_assoc]) done

lemma bindingElement_spends : Spends env 0 (bindingElement n) (Proper env.file) :=
  .ofRead (.branch (arrayBinding_spends hr hs) (objectBinding_spends hr hs))

/-! ### Elements -/

omit hr in
lemma jsxIdentifier_spends : Spends env 0 (jsxIdentifier n) (Proper env.file) :=
  .after (tokensOf_looks hs) fun _ _ => .after (sourceOf_looks _) fun _ _ =>
    finish_spends hs (by simp) (.plain rfl) (by simp)

omit hr in
lemma jsxName_spends : Spends env 0 (jsxName n) (Proper env.file) := by
  refine .branch ?_ (jsxIdentifier_spends hs)
  refine require_spends fun m hm => ?_
  refine (jsxIdentifier_spends (hs.of_part? hm)).bind fun namespaceName hn => ?_
  refine require_spends fun m hm => ?_
  exact (jsxIdentifier_spends (hs.of_part? hm)).bind fun name hname =>
    finish_spends hs (by simp [hn, hname]) (.plain rfl) (by simp)

omit hr in
lemma jsxTagName_spends : Spends env 0 (jsxTagName n) (Proper env.file) := by
  induction n using jsxTagName.induct with
  | case1 label object property hk ih =>
    unfold jsxTagName
    simp only [hk]
    refine (ih (hs.of_mem (by simp))).bind fun object ho => ?_
    exact (jsxIdentifier_spends (hs.of_mem (by simp))).bind fun property hp =>
      finish_spends hs (by simp [ho, hp]) (.plain rfl) (by simp [add_comm])
  | case2 label parts h =>
    have hname : jsxTagName (.node label parts) = jsxName (.node label parts) := by
      unfold jsxTagName
      split
      · exact (h _ _ ‹_› rfl).elim
      · rfl
    rw [hname]
    exact jsxName_spends hs

lemma openingElement_spends (native : Option Node) {r : Span} (selfClosing : Bool)
    (hrange : SpanCut env.file r) :
    Spends env 0 (openingElement native n r selfClosing) (Proper env.file) := by
  refine require_spends fun m hm => (jsxTagName_spends (hs.of_part? hm)).bind fun name hname => ?_
  refine (typeArguments?_spends hr hs).bind fun args ha => ?_
  extract_lets rest
  have hrest (attributes : List EsNode) (h : ∀ c ∈ attributes, Proper env.file c) :
      Spends env (ids attributes + (ids args + (ids name + 0))) (rest attributes)
        (Proper env.file) := make_spends hrange (by simp_all) (.plain rfl) (by simp [add_comm])
  split
  · exact (children_spends hr (hs.of_part? ‹_›) _).bind hrest
  · simpa using hrest [] (by simp)

lemma jsxOpening_spends : Spends env 0 (jsxOpening n) (Proper env.file) :=
  .after (tokensOf_looks hs) fun _ h => openingElement_spends hr hs _ _ h.2

lemma jsxSelfClosing_spends : Spends env 0 (jsxSelfClosing n) (Proper env.file) :=
  .after (tokensOf_looks hs) fun _ h => (openingElement_spends hr hs _ _ h.2).bind fun _ ho =>
    finish_spends hs (by simpa using ho) (.plain rfl) (by simp)

omit hr in
lemma jsxClosing_spends : Spends env 0 (jsxClosing n) (Proper env.file) :=
  require_spends fun _ hm => (jsxTagName_spends (hs.of_part? hm)).bind fun _ hname =>
    finish_spends hs (by simpa using hname) (.plain rfl) (by simp)

lemma jsxElement_spends : Spends env 0 (jsxElement n) (Proper env.file) := by
  refine (child_spends hr hs _).bind fun opening ho => ?_
  refine (children_spends hr hs _).bind fun inside hi => ?_
  exact (child?_spends hr hs _).bind fun closing hc => finish_spends hs (by simp_all)
    (.plain rfl) (by simp [add_comm, add_left_comm, add_assoc])

lemma jsxFragment_spends : Spends env 0 (jsxFragment n) (Proper env.file) := by
  refine (child_spends hr hs _).bind fun opening ho => ?_
  refine (children_spends hr hs _).bind fun inside hi => ?_
  exact (child_spends hr hs _).bind fun closing hc => finish_spends hs (by simp_all)
    (.plain rfl) (by simp [add_comm, add_left_comm, add_assoc])

lemma jsxAttribute_spends : Spends env 0 (jsxAttribute n) (Proper env.file) := by
  refine require_spends fun m hm => (jsxName_spends (hs.of_part? hm)).bind fun name hname => ?_
  exact (child?_spends hr hs _).bind fun value hv => finish_spends hs (by simp_all)
    (.plain rfl) (by simp [add_comm])

omit hr in
/-- The space between braces without an expression. -/
lemma inner_spanCut (hk : n.kind = .form .jsxExpression) (hnone : n.part? .expression = none) :
    SpanCut env.file (Span.between ((rangeOf env.file n).start + 1)
      ((rangeOf env.file n).stop - 1)) := by
  have hbraces (he : env.file.errors = []) :=
    hs.anchored.braces he (by simp [Tree.isForm, hk]) hnone
  have hrange (he : env.file.errors = []) : (rangeOf env.file n).start =
      Trivia.skip env.file.text n.pos ∧ (rangeOf env.file n).stop = n.stop := by
    obtain ⟨hlt, hle, -, -⟩ := hbraces he
    have hstart : env.file.startOf n = Trivia.skip env.file.text n.pos := by
      simp [SourceFile.startOf, Tree.isToken, hk, Nat.ne_of_lt hlt, hle]
    exact ⟨hstart, by simp [rangeOf, Span.between, hstart, hle]⟩
  refine .between (fun he => ?_) fun he => ?_
  · rw [(hrange he).1]
    exact (hbraces he).inner_start
  · rw [(hrange he).2]
    exact (hbraces he).inner_stop

lemma jsxExpression_spends (hk : n.kind = .form .jsxExpression) :
    Spends env 0 (jsxExpression n) (Proper env.file) := by
  unfold jsxExpression
  extract_lets type rest
  have hrest (e : EsNode) (h : Proper env.file e) :
      Spends env (ids e + 0) (rest e) (Proper env.file) := by
    refine finish_spends hs (by simpa using h) ?_ (by simp)
    unfold type
    split <;> exact .plain rfl
  refine .ite (fun _ => (child_spends hr hs _).bind hrest) fun hnone => ?_
  refine .after (tokensOf_looks hs) fun r hr => ?_
  rw [hr.1]
  refine (make_spends (inner_spanCut hs hk (by simpa using hnone)) (by simp)
    (.plain rfl) (by simp)).bind hrest

end EstreeLint.Estree.Convert
