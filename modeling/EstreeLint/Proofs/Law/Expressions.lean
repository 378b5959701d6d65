import EstreeLint.Proofs.Law.Types

/-!
The rules for expressions, patterns and elements under a law, other than those for links and for
what may be assigned to.
-/

namespace EstreeLint.Estree.Convert

set_option synthInstance.maxSize 1000

variable {env : Env} {L : Law env.file} {Γ : Facts env.file} {n m : Node}
  {t : NodeType} {f : Field} {r : Role}

/-! ### Expressions -/

section Expressions

variable [Asked env L] [Entails Γ (.fact (Plain L n))]

instance [IsTrue (isPlain t)] : Gives env L Γ (wrappedExpression n t f) := by
  unfold wrappedExpression
  infer_instance

instance : Gives env L Γ (importExpression n) := by
  unfold importExpression
  split
  · infer_instance
  · next source rest h =>
    refine .from_fact (q := Quiet L n .argument) inferInstance fun hquiet => ?_
    have hinner (m : Node) (hm : m ∈ source :: rest) : L.inner m := hquiet m (h ▸ hm)
    refine .bind (.given (hinner source (by simp)) inferInstance) fun _ => ?_
    refine .bind (.mapM? _ fun m hm => ?_) fun _ => inferInstance
    exact .given (hinner m (by simp [List.mem_of_mem_head? hm])) inferInstance

instance : Gives env L Γ (newExpression n) := by unfold newExpression; infer_instance

instance : Gives env L Γ (taggedTemplate n) := by unfold taggedTemplate; infer_instance

instance : Gives env L Γ (templateExpression n) := by unfold templateExpression; infer_instance

instance (operator : String) : Gives env L Γ (wordOperator n operator) := by
  unfold wordOperator
  infer_instance

instance : Gives env L Γ (unaryExpression n) := by
  unfold unaryExpression
  split
  · split <;> infer_instance
  · infer_instance

lemma finish_comes {r s : Registry} {a : EsNode} {ps : List Part}
    (h : finish n t ps env r = .ok (a, s)) : s.nativeOf? a.id = some n.index := by
  cases h
  exact (Registry.nativeOf?_next ..).trans (if_pos rfl)

/-- A sequence that is taken up into another no longer answers for anything. -/
lemma sequence_gives (hop : TakenUp n) (hmakes : L.makes (some n.index) .sequenceExpression) :
    Gives env L Γ (sequence n) := by
  refine .from_fact (q := Plain L n) inferInstance fun hplain => ?_
  have hmobile : Mobile env.file n.index := ⟨n, hplain.mem, rfl, hop⟩
  refine .bind inferInstance fun left => ?_
  extract_lets closed continues earlier
  have htype (h : continues = true) : left.type = .sequenceExpression := by
    simpa using (Bool.and_eq_true_iff.1 h).1
  refine .bind inferInstance fun right => ?_
  have hearlier : Entails ((Facts.good L right).both ((Facts.good L left).both Γ))
      (.good L earlier) := by
    refine ⟨fun {r} hΓ => ?_⟩
    have hleft : L.Good r left := hΓ.2.1
    unfold earlier
    split
    · next h => exact fun c hc => hleft.children (.inr (htype h)) c (List.mem_filter.1 hc).1
    · exact fun c hc => List.mem_singleton.1 hc ▸ hleft
  have hwhole : Gives env L ((Facts.good L right).both ((Facts.good L left).both Γ))
      (finish n .sequenceExpression [.list .expressions (earlier ++ [right])]) := by
    have hparts : Entails ((Facts.good L right).both ((Facts.good L left).both Γ))
        (.parts L [.list .expressions (earlier ++ [right])]) := inferInstance
    have hnative : Makes L (some n) .sequenceExpression := hmakes
    refine ⟨fun hΓ hkept hrun => ?_⟩
    exact (make_moves hplain.start (hparts.of hΓ) hnative (by decide)
      (fun _ => ⟨n, rfl, hmobile⟩) hkept hrun).1
  refine .bindOf (Δ := fun a => .comes a.id n.index) hwhole finish_comes fun whole => ?_
  refine .ite (fun h => .bind (redirect_gives fun hΓ => ⟨fun x hx => ?_, ?_⟩) fun _ => ?_)
    fun _ => inferInstance
  · have hleft : L.Good _ left := hΓ.2.2.2.1
    obtain ⟨y, hy, hmobile⟩ := hleft.root.sequence (htype h)
    exact Option.some.inj (hx.symm.trans hy) ▸ hmobile
  · exact Option.isSome_of_mem hΓ.1
  · infer_instance

instance : Gives env L Γ (conditionalExpression n) := by
  unfold conditionalExpression
  infer_instance

instance : Gives env L Γ (yieldExpression n) := by unfold yieldExpression; infer_instance

instance [IsTrue (isPlain t)] : Gives env L Γ (typedExpression n t) := by
  unfold typedExpression
  infer_instance

instance : Gives env L Γ (metaProperty n) := by
  unfold metaProperty
  split
  · refine .bind inferInstance fun whole => .bind inferInstance fun ⟨_, r⟩ => ?_
    dsimp only
    infer_instance
  · infer_instance

instance : Gives env L Γ (instantiation n) := by
  unfold instantiation
  refine .bind inferInstance fun e => .bind inferInstance fun args => ?_
  split <;> infer_instance

end Expressions

section

variable [Asked env L] [Entails Γ (.fact (L.inner n))] [Entails Γ (.fact (Inlined env.file n))]
  [IsTrue (isPlain t)]

instance : Gives env L Γ (heritageType n t) := by unfold heritageType; infer_instance

end

/-! ### Patterns -/

section Bindings

variable {r : Registry} {a : EsNode}

/-- A node that may be changed is still good once it has been given a slot. -/
lemma good_setSlot {g : Field} {slot : Slot} {ns : List EsNode} (h : L.Good r a)
    (ht : isEdited a.type = true) (hns : ∀ m ∈ ns, L.Good r m) :
    L.Good r (a.setSlot g slot ns) := by
  refine h.edit ht rfl rfl h.root.start fun c hc => ?_
  rcases mem_children_setSlot hc with hc | ⟨m, hm, rfl⟩
  · exact h.children (.inl ht) c hc
  · exact (hns m hm).inField g

lemma good_settle (h : L.Good r a) (ht : isEdited a.type = true) :
    L.Good r (settle env.file a) := by
  have hcs := h.children (.inl ht)
  obtain ⟨l, cs⟩ := a
  exact h.edit ht rfl rfl (widenOver_start h.root.start fun c hc => (hcs c hc).root.start) hcs

lemma isEdited_of_binding {t : NodeType} (h : isBindingType t = true) : isEdited t = true := by
  simp [isEdited, h]

lemma declare_gives {e : EsNode} {type : Option EsNode} {question : Option Span}
    [he : Entails Γ (.good L e)] [hs : Entails Γ (.good L type)] [hq : Entails Γ (.good L question)]
    (hb : isBindingType e.type = true) : Gives env L Γ (declare e type question) := by
  have hedited := isEdited_of_binding hb
  unfold declare
  extract_lets binds typed marked
  have hbinds : binds = true := hb
  refine .look fun {r s a} hΓ hrun => ?_
  obtain ⟨htyped, htype⟩ : L.Good r typed ∧ typed.type = e.type := by
    unfold typed
    cases type with
    | none => exact ⟨he.of hΓ, rfl⟩
    | some type =>
      simp only [hbinds, if_true]
      refine ⟨good_setSlot (he.of hΓ) hedited fun m hm => ?_, rfl⟩
      exact List.mem_singleton.1 hm ▸ hs.of hΓ type rfl
  rw [← htype] at hedited
  obtain ⟨hmarked, htype'⟩ : L.Good r marked ∧ marked.type = typed.type := by
    unfold marked
    cases question with
    | none => exact ⟨htyped, rfl⟩
    | some w =>
      have hvalue : L.Good r (typed.setValue .optional (.flag true)) :=
        good_setSlot htyped hedited (by simp)
      simp only [hbinds, if_true]
      refine ⟨hvalue.edit hedited rfl rfl ?_ (hvalue.children (.inl hedited)), rfl⟩
      exact Nat.le_min.2 ⟨hvalue.root.start, hq.of hΓ w rfl⟩
  rw [← htype'] at hedited
  cases hrun
  exact ⟨rfl, good_settle hmarked hedited⟩

instance {e : EsNode} {ds : List EsNode} [he : Entails Γ (.good L e)]
    [hd : Entails Γ (.good L ds)] : Gives env L Γ (decorate e ds) := by
  unfold decorate
  refine .ite (fun _ => inferInstance) fun h => .look fun hΓ hrun => ?_
  have hedited : isEdited e.type = true := by
    simp only [Bool.or_eq_true, Bool.not_eq_true', not_or, Bool.not_eq_false, beq_iff_eq] at h
    simp only [isEdited, Bool.or_eq_true, beq_iff_eq]
    exact .inl (.inl h.2)
  cases hrun
  exact ⟨rfl, good_settle (good_setSlot (he.of hΓ) hedited (hd.of hΓ)) hedited⟩

end Bindings

section Patterns

variable [hasked : Asked env L]

/-- The name in a parameter or in a declaration gives a binding. -/
lemma name_gives {α : Type} [Carrier α] {g : EsNode → Convert α} {isTarget : Bool}
    (hn : n ∈ env.file.root.nodes)
    (hk : n.isForm .parameter = true ∨ n.isForm .variableDeclaration = true)
    (hask : ∀ m ∈ n.partsOf .name, Grammar.Binds m → L.asks isTarget m)
    (hg : ∀ a, isBindingType a.type = true → Gives env L ((Facts.good L a).both Γ) (g a)) :
    Gives env L Γ ((require n .name >>= (convertPart n · isTarget)) >>= g) := by
  obtain ⟨m, hm, hbinds⟩ := (hasked.sited n hn).named hk
  have hquery : (env.place.below n isTarget).inQuery = false := by
    rcases hk with hk | hk <;> simp_all [Place.below, Tree.isForm]
  rw [bind_assoc]
  refine requireOf fun m' hm' => ?_
  obtain rfl : m = m' := Option.some.inj (hm.symm.trans hm')
  have htype {r s : Registry} {a : EsNode} (h : convertPart n m isTarget env r = .ok (a, s)) :
      isBindingType a.type = true := hasked.binds hbinds hquery h
  refine .bindOf (Δ := fun a => .fact (isBindingType a.type = true))
    (convertPart_gives (hask m (mem_partsOf_of_part? hm) hbinds)) htype fun a => ?_
  refine .from_fact (q := isBindingType a.type = true) inferInstance fun h => ?_
  exact (hg a h).known fun _ hΓ => hΓ.2

lemma parameter_gives [Entails Γ (.fact (Plain L n))] (hk : n.isForm .parameter = true) :
    Gives env L Γ (parameter n) := by
  refine .from_fact (q := Plain L n) inferInstance fun hplain => ?_
  refine name_gives hplain.mem (.inl hk)
    (fun m hm _ => L.inner_asks (hplain.part m (Below.mem_of_partsOf hm))) fun name hname => ?_
  refine .bind inferInstance fun type => .ofRead ?_
  extract_lets question isProperty rest
  have hquestion : Entails Γ (.good L question) := by
    refine ⟨fun _ w hw => ?_⟩
    obtain ⟨mark, hmark, rfl⟩ := Option.map_eq_some_iff.1 hw
    exact (L.inner_spotted (hplain.part mark (Below.mem_of_part? hmark))).start
  have hrest {Δ : Facts env.file} [Entails Δ (.fact (Plain L n))] (result : EsNode) :
      Gives env L ((Facts.good L result).both Δ) (rest result) := by
    unfold rest
    infer_instance
  clear_value rest
  refine .ite (fun _ => ?_) fun _ => .ite (fun _ => ?_) fun _ => ?_
  · refine finish_bind fun whole ht => .bind (declare_gives (by rw [ht]; rfl)) hrest
  · refine .bind (declare_gives hname) fun left => .bind inferInstance fun right => ?_
    refine finish_bind fun whole ht => .ite (fun _ => ?_) fun _ => .bind inferInstance hrest
    exact .bind (restart_gives (by rw [ht]; rfl)) hrest
  · exact .bind (declare_gives hname) hrest

instance [Entails Γ (.fact (Quiet L n .parameter))] : Gives env L Γ (parameters n) := by
  unfold parameters
  infer_instance

section

variable [Entails Γ (.fact (Plain L n))]

instance : Gives env L Γ (objectBindingPattern n) := by
  unfold objectBindingPattern
  infer_instance

instance : Gives env L Γ (arrayBindingPattern n) := by
  unfold arrayBindingPattern
  infer_instance

instance : Gives env L Γ (arrayBinding n) := by unfold arrayBinding; infer_instance

instance : Gives env L Γ (objectBinding n) := by
  unfold objectBinding
  refine .ite (fun _ => inferInstance) fun _ => .bind inferInstance fun key => ?_
  extract_lets rest
  have hrest {Δ : Facts env.file} [Entails Δ (.fact (Plain L n))] [Entails Δ (.good L key)]
      (value : EsNode) : Gives env L ((Facts.good L value).both Δ) (rest value) := by
    unfold rest
    infer_instance
  clear_value rest
  refine .ite (fun _ => ?_) fun _ => .bind inferInstance hrest
  refine .from_fact (q := Quiet L n .name) inferInstance fun hquiet => ?_
  refine requireOf fun m hm => .given (hquiet m (mem_partsOf_of_part? hm)) ?_
  refine .bind inferInstance fun left => .bind inferInstance fun right => .ofRead ?_
  exact .bind inferInstance hrest

instance : Gives env L Γ (bindingElement n) := .ofRead inferInstance

end

end Patterns

/-! ### Elements -/

section Elements

/-- A name that is read where it stands. -/
instance [Entails Γ (.fact (L.inner n))] [Entails Γ (.fact (Inlined env.file n))] :
    Gives env L Γ (jsxIdentifier n) := by
  unfold jsxIdentifier
  infer_instance

lemma jsxName_gives (hn : n ∈ env.file.root.nodes) (hpart : ∀ m ∈ n.children, L.inner m)
    (hstart : After L (env.file.startOf n))
    (hmakes : ∀ t, isPlain t = true → L.makes (some n.index) t) : Gives env L Γ (jsxName n) := by
  have hnative (t : NodeType) (ht : isPlain t = true) : Makes L (some n) t := hmakes t ht
  refine .given hstart (.given (hnative .jsxIdentifier rfl)
    (.given (hnative .jsxNamespacedName rfl) ?_))
  unfold jsxName
  refine .ite (fun hform => ?_) fun _ => ?_
  · have hk : n.kind = .form .jsxNamespacedName := by simpa [Tree.isForm] using hform
    refine requireOf fun space hspace => ?_
    have hmem := Below.mem_of_part? hspace
    refine .given (hpart space hmem) (.given (q := Inlined env.file space) (.spaced hn hk hmem) ?_)
    refine .bind inferInstance fun space => requireOf fun name hname => ?_
    have hmem := Below.mem_of_part? hname
    refine .given (hpart name hmem) (.given (q := Inlined env.file name) (.spaced hn hk hmem) ?_)
    infer_instance
  · unfold jsxIdentifier
    infer_instance

lemma inner_of_name (h : L.inner n)
    (hk : n.kind = .form .propertyAccessExpression ∨ n.kind = .form .jsxNamespacedName) :
    ∀ m ∈ n.children, L.inner m := by
  intro m hm
  refine L.inner_part (r := m.role) h ?_ (List.mem_filter.2 ⟨hm, by simp⟩)
  unfold isQuiet
  split
  iterate 3 rcases hk with hk | hk <;> simp [hk]
  · rfl

lemma jsxName_inlined (h : L.inner n) (hi : Inlined env.file n) : Gives env L Γ (jsxName n) := by
  by_cases hk : n.kind = .form .jsxNamespacedName
  · exact jsxName_gives (L.inner_spotted h).mem (inner_of_name h (.inr hk))
      (L.inner_spotted h).start fun _ => L.inlined h hi
  · unfold jsxName
    rw [if_neg (by simpa [Tree.isForm] using hk)]
    exact .given h (.given hi inferInstance)

/-- The names in a tag that has dots stand in one another. -/
lemma jsxTagName_gives (h : L.inner n) (hi : Inlined env.file n) :
    Gives env L Γ (jsxTagName n) := by
  induction n using jsxTagName.induct generalizing Γ with
  | case1 label object property hk ih =>
    have hparts := inner_of_name h (.inl hk)
    have hdotted {m : Node} (hm : m ∈ [object, property]) : Inlined env.file m := .dotted hi hk hm
    unfold jsxTagName
    simp only [hk]
    refine .bind (ih (hparts object (by simp)) (hdotted (by simp))) fun e => ?_
    refine .given (hparts property (by simp)) (.given (hdotted (m := property) (by simp)) ?_)
    exact .bind inferInstance fun name => .given h (.given hi inferInstance)
  | case2 label parts hname =>
    unfold jsxTagName
    split
    · exact (hname _ _ ‹_› rfl).elim
    · exact jsxName_inlined h hi

/-- The name in a tag. -/
lemma tagName_gives {α : Type} [Carrier α] {g : EsNode → Convert α} (hn : n ∈ env.file.root.nodes)
    (hpart : ∀ m ∈ n.children, L.inner m)
    (hg : ∀ a, Gives env L ((Facts.good L a).both Γ) (g a)) :
    Gives env L Γ (require n .tagName >>= fun m => jsxTagName m >>= g) := by
  refine requireOf fun m hm => .bind (jsxTagName_gives (hpart m (Below.mem_of_part? hm)) ?_) hg
  exact .tag hn (mem_partsOf_of_part? hm)

variable [Asked env L] [Entails Γ (.fact (Plain L n))]

lemma openingElement_gives {native : Option Node} {w : Span} {selfClosing : Bool}
    [Entails Γ (.good L w)] (hnative : Makes L native .jsxOpeningElement) :
    Gives env L Γ (openingElement native n w selfClosing) := by
  refine .from_fact (q := Plain L n) inferInstance fun hplain => ?_
  refine tagName_gives hplain.mem hplain.part fun name => .given hnative ?_
  refine .bind inferInstance fun args => ?_
  extract_lets rest
  have hrest {Δ : Facts env.file} [Entails Δ (.fact (Makes L native .jsxOpeningElement))]
      [Entails Δ (.good L args)] [Entails Δ (.good L name)] [Entails Δ (.good L w)]
      (attributes : List EsNode) :
      Gives env L ((Facts.good L attributes).both Δ) (rest attributes) := by
    unfold rest
    infer_instance
  clear_value rest
  split
  · next list hlist =>
    refine .given (hplain.part list (Below.mem_of_part? hlist)) ?_
    exact .bind inferInstance hrest
  · exact .bind inferInstance hrest

instance : Gives env L Γ (jsxOpening n) := by
  refine .from_fact (q := Plain L n) inferInstance fun hplain => ?_
  exact .bind inferInstance fun w => openingElement_gives (hplain.makes _ rfl)

instance : Gives env L Γ (jsxSelfClosing n) :=
  .bind inferInstance fun _ => .bind (openingElement_gives (L.synthetic rfl)) fun _ => inferInstance

instance : Gives env L Γ (jsxClosing n) := by
  refine .from_fact (q := Plain L n) inferInstance fun hplain => ?_
  exact tagName_gives hplain.mem hplain.part fun name => inferInstance

instance : Gives env L Γ (jsxElement n) := by unfold jsxElement; infer_instance

instance : Gives env L Γ (jsxFragment n) := by unfold jsxFragment; infer_instance

lemma jsxAttribute_gives (hk : n.kind = .form .jsxAttribute) :
    Gives env L Γ (jsxAttribute n) := by
  refine .from_fact (q := Plain L n) inferInstance fun hplain => ?_
  refine requireOf fun m hm => .bind (jsxName_inlined ?_ ?_) fun name => inferInstance
  · exact hplain.part m (Below.mem_of_part? hm)
  · exact .attributeName hplain.mem hk (mem_partsOf_of_part? hm)

instance : Gives env L Γ (jsxName n) := by
  refine .from_fact (q := Plain L n) inferInstance fun hplain => ?_
  exact jsxName_gives hplain.mem hplain.part hplain.start hplain.makes

instance : Gives env L Γ (jsxExpression n) := by
  unfold jsxExpression
  extract_lets type rest
  have htype : IsTrue (isPlain type) := ⟨by unfold type; split <;> rfl⟩
  have hrest {Δ : Facts env.file} [Entails Δ (.fact (Plain L n))] (e : EsNode) :
      Gives env L ((Facts.good L e).both Δ) (rest e) := by
    unfold rest
    infer_instance
  clear_value rest
  refine .ite (fun _ => .bind inferInstance hrest) fun _ => ?_
  exact .bind inferInstance fun w => .bind inferInstance hrest

end Elements

end EstreeLint.Estree.Convert
