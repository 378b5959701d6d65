import EstreeLint.Proofs.Law.Statements

/-!
The rules for what may be assigned to, and for links in a chain, under a law.

Here a part may be converted as a target, and links are taken apart, so a law has more to say of
these than that their parts are read.
-/

namespace EstreeLint.Estree.Convert

set_option synthInstance.maxSize 1000

variable {env : Env} {L : Law env.file} {Γ : Facts env.file} {n m : Node}
  {r : Role} [Asked env L]

/-! ### Targets -/

section Targets

variable {α : Type} [Carrier α]

omit [Asked env L] in
lemma isTarget_gives {f : Bool → Convert α} (h : Gives env L Γ (f env.place.isTarget)) :
    Gives env L Γ (isTarget >>= f) := .ofRead h

lemma target_gives (h : ∀ m ∈ n.partsOf r, L.asks true m) : Gives env L Γ (target n r) :=
  requireOf fun m hm => convertPart_gives (h m (mem_partsOf_of_part? hm))

lemma childrenOrHoles_gives {isTarget : Bool} (h : ∀ m ∈ n.partsOf r, L.asks isTarget m) :
    Gives env L Γ (childrenOrHoles n r isTarget) := by
  refine .mapM _ fun m hm => .ite (fun _ => inferInstance) fun _ => ?_
  have hpart : Gives env L Γ (convertPart n m isTarget) := convertPart_gives (h m hm)
  infer_instance

variable (hstart : After L (env.file.startOf n))

include hstart

lemma arrayLiteral_gives (hask : ∀ m ∈ n.partsOf .element, L.asks env.place.isTarget m)
    (hmakes : Makes L (some n) (if env.place.isTarget then .arrayPattern else .arrayExpression)) :
    Gives env L Γ (arrayLiteral n) := by
  refine .given hstart (isTarget_gives (.bind (childrenOrHoles_gives hask) fun elements => ?_))
  refine isTarget_gives (.ite (fun h => ?_) fun h => ?_)
  · rw [if_pos h] at hmakes
    exact .given hmakes inferInstance
  · rw [if_neg h] at hmakes
    exact .given hmakes inferInstance

lemma objectLiteral_gives (hask : ∀ m ∈ n.partsOf .element, L.asks env.place.isTarget m)
    (hmakes : Makes L (some n) (if env.place.isTarget then .objectPattern else .objectExpression)) :
    Gives env L Γ (objectLiteral n) := by
  refine .given hstart (isTarget_gives (.bind (.mapM _ fun m hm => ?_) fun properties => ?_))
  · exact convertPart_gives (hask m hm)
  refine isTarget_gives (.ite (fun h => ?_) fun h => ?_)
  · rw [if_pos h] at hmakes
    exact .given hmakes inferInstance
  · rw [if_neg h] at hmakes
    exact .given hmakes inferInstance

lemma propertyAssignment_gives (hname : Quiet L n .name)
    (hask : ∀ m ∈ n.partsOf .value, L.asks env.place.isTarget m)
    (hmakes : Makes L (some n) .property) : Gives env L Γ (propertyAssignment n) := by
  refine .given hstart (.given hname (.given hmakes (.bind inferInstance fun key => ?_)))
  refine isTarget_gives (.ite (fun h => ?_) fun h => ?_)
  · exact .bind (target_gives (h ▸ hask)) fun value => inferInstance
  · rw [Bool.not_eq_true] at h
    exact .bind (child_gives (h ▸ hask)) fun value => inferInstance

lemma shorthandProperty_gives (hname : ∀ m ∈ n.partsOf .name, L.asks true m ∧ L.asks false m)
    (hvalue : Quiet L n .initializer) (hmakes : Makes L (some n) .property) :
    Gives env L Γ (shorthandProperty n) := by
  have hplain {Δ : Facts env.file} : Gives env L Δ (child n .name) :=
    child_gives fun m hm => (hname m hm).2
  have hleft {Δ : Facts env.file} : Gives env L Δ (target n .name) :=
    target_gives fun m hm => (hname m hm).1
  refine .given hstart (.given hvalue (.given hmakes (.bind hplain fun key => ?_)))
  refine .ite (fun _ => .bind hleft fun left => ?_) fun _ => .bind hplain fun value => inferInstance
  exact .bind inferInstance fun right => .bind inferInstance fun w => inferInstance

lemma spread_gives (hask : ∀ m ∈ n.partsOf .expression, L.asks env.place.isTarget m)
    (hmakes : Makes L (some n) (if env.place.isTarget then .restElement else .spreadElement)) :
    Gives env L Γ (spread n) := by
  refine .given hstart (isTarget_gives (.ite (fun h => ?_) fun h => ?_))
  · rw [if_pos h] at hmakes
    exact .bind (target_gives (h ▸ hask)) fun e => .given hmakes inferInstance
  · rw [if_neg h] at hmakes
    rw [Bool.not_eq_true] at h
    exact .bind (child_gives (h ▸ hask)) fun e => .given hmakes inferInstance

omit hstart in
/-- Only an assignment has a target on its left. -/
lemma binaryExpression_gives
    (hplain : ∀ k, operator? n = some k → k.isAssignment = false → Plain L n)
    (hsequence : operator? n = some .comma → L.makes (some n.index) .sequenceExpression)
    (hstart : After L (env.file.startOf n)) (hright : Quiet L n .right)
    (hleft : ∀ k, operator? n = some k → k.isAssignment = true →
      ∀ m ∈ n.partsOf .left, L.asks true m)
    (hmakes : ∀ k, operator? n = some k → k.isAssignment = true → Makes L (some n)
      (if env.place.isTarget && k == .equals then .assignmentPattern else .assignmentExpression))
    (hk : n.kind = .form .binaryExpression) : Gives env L Γ (binaryExpression n) := by
  unfold binaryExpression
  split
  · next k hop =>
    refine .ite (fun h => ?_) fun _ => ?_
    · obtain rfl := beq_iff_eq.1 h
      exact .given (hplain _ hop rfl) (sequence_gives (.inr ⟨hk, hop⟩) (hsequence hop))
    · split
      · next operator _ =>
        refine .ite (fun h => ?_) fun h => ?_
        · refine .given hstart (.given hright (.bind (target_gives (hleft k hop h)) fun left => ?_))
          refine .bind inferInstance fun right => isTarget_gives ?_
          have hnode := hmakes k hop h
          refine .ite (fun h => ?_) fun h => ?_
          · rw [if_pos h] at hnode
            exact .given hnode inferInstance
          · rw [if_neg h] at hnode
            exact .given hnode inferInstance
        · rw [Bool.not_eq_true] at h
          refine .given (hplain k hop h) (.bind inferInstance fun left => ?_)
          refine .bind inferInstance fun right => ?_
          extract_lets logical
          split <;> infer_instance
      · infer_instance
  · infer_instance

lemma forEachStatement_gives (hleft : ∀ m ∈ n.partsOf .initializer, L.asks true m)
    (hright : Quiet L n .expression) (hbody : Quiet L n .statement)
    (hmakes : ∀ t, isPlain t = true → L.makes (some n.index) t) :
    Gives env L Γ (forEachStatement n) := by
  refine .given hstart (.given hright (.given hbody (.bind (target_gives hleft) fun left => ?_)))
  refine .bind inferInstance fun right => .bind inferInstance fun body => ?_
  have hof : Makes L (some n) .forOfStatement := hmakes _ rfl
  have hin : Makes L (some n) .forInStatement := hmakes _ rfl
  exact .ite (fun _ => .given hof inferInstance) fun _ => .given hin inferInstance

end Targets

/-! ### Links -/

/-- A link that is made of `n`, and the field with its subject. -/
inductive LinkOf (n : Node) : NodeType → Field → List Part → Prop where
  | member (computed : Bool) (object property : EsNode) :
    LinkOf n .memberExpression .object
      [.flag .isComputed computed, .one .object object,
        .flag .optional (n.part? .questionDot).isSome, .one .property property]
  | call (args : List EsNode) (callee : EsNode) (typeArgs : Option EsNode) :
    LinkOf n .callExpression .callee
      [.list .arguments args, .one .callee callee,
        .flag .optional (n.part? .questionDot).isSome, .extra .typeArguments typeArgs]
  | nonNull (e : EsNode) (hk : n.kind = .form .nonNullExpression) :
    LinkOf n .tsNonNullExpression .expression [.one .expression e]

/-- **A link is made of parts that are read, and then a chain may be put around it.** -/
theorem link_gives {f : Form} [Entails Γ (.fact (Plain L n))] (hf : f ∈ linkForms)
    (hk : n.kind = .form f)
    (hwrap : ∀ {Δ t g ps}, LinkOf n t g ps → Entails Δ (.parts L ps) →
      Gives env L Δ (finish n t ps >>= (wrapChain n · g))) :
    Gives env L Γ (ruleFor n f) := by
  simp only [linkForms, List.mem_cons, List.not_mem_nil, or_false] at hf
  have hmember : Gives env L Γ (memberExpression n) := by
    refine .bind inferInstance fun object => ?_
    extract_lets computed
    have hrest {Δ : Facts env.file} [Entails Δ (.good L object)] (property : EsNode) :
        Gives env L ((Facts.good L property).both Δ) (finish n .memberExpression
          [.flag .isComputed computed, .one .object object,
            .flag .optional (n.part? .questionDot).isSome, .one .property property] >>=
          (wrapChain n · .object)) := hwrap (.member ..) inferInstance
    clear_value computed
    cases computed <;> exact .bind inferInstance hrest
  rcases hf with rfl | rfl | rfl | rfl
  · exact hmember
  · exact hmember
  · change Gives env L Γ (callExpression n)
    refine .ite (fun _ => inferInstance) fun _ => .bind inferInstance fun callee => ?_
    refine .bind inferInstance fun typeArgs => .bind inferInstance fun args => ?_
    exact hwrap (.call ..) inferInstance
  · change Gives env L Γ (nonNull n)
    exact .bind inferInstance fun e => hwrap (.nonNull e hk) inferInstance

/-- The subject of the node is in parentheses. -/
def isClosed (n : Node) : Bool := (n.part? .expression).any (·.isForm .parenthesizedExpression)

/-- **What comes of a link**: it stays as it is, or a chain is put around it, or around what is left
of it when the chain that it continues has been dissolved. -/
theorem wrapChain_run {link a : EsNode} {g : Field} {r s : Registry}
    (hchains : ∀ c, link.child? g = some c → c.type = .chainExpression →
      ∃ e, c.children = [e] ∧ e.field = .expression)
    (hrun : wrapChain n link g env r = .ok (a, s)) :
    (∀ c, link.child? g = some c → c.type = .chainExpression → isClosed n = true) ∧
        (((n.part? .questionDot).isSome = false ∧ a = link ∧ s = r) ∨
          (n.part? .questionDot).isSome = true ∧
            make (some n) link.range .chainExpression [.one .expression link] env r = .ok (a, s)) ∨
      ∃ c e, link.child? g = some c ∧ c.type = .chainExpression ∧ c.children = [e] ∧
        make (some n) (link.setChild g e).range .chainExpression
          [.one .expression (link.setChild g e)] env (r.redirect c.id e.id) = .ok (a, s) := by
  cases hcontinues : !isClosed n && (link.child? g).any (·.type == .chainExpression) with
  | false =>
    refine .inl ⟨fun c hc ht => by simpa [hc, ht] using hcontinues, ?_⟩
    rw [isClosed] at hcontinues
    simp only [wrapChain, hcontinues, Bool.not_false, Bool.true_and, Bool.false_eq_true, if_false,
      pure_bind] at hrun
    cases hoptional : (n.part? .questionDot).isSome with
    | false =>
      rw [hoptional] at hrun
      cases hrun
      exact .inl ⟨rfl, rfl, rfl⟩
    | true =>
      rw [hoptional] at hrun
      exact .inr ⟨rfl, hrun⟩
  | true =>
    obtain ⟨c, hc, ht⟩ : ∃ c, link.child? g = some c ∧ c.type = .chainExpression := by
      obtain ⟨c, hc, ht⟩ := (Option.any_eq_true _ _).1 (Bool.and_eq_true_iff.1 hcontinues).2
      exact ⟨c, hc, beq_iff_eq.1 ht⟩
    obtain ⟨e, hcs, hfield⟩ := hchains c hc ht
    have hinner : c.child? .expression = some e := by simp [Tree.child?, hcs, hfield]
    refine .inr ⟨c, e, hc, ht, hcs, ?_⟩
    rw [isClosed] at hcontinues
    simp only [wrapChain, hcontinues, Bool.not_true, Bool.false_and, Bool.false_eq_true, if_false,
      if_true] at hrun
    rw [hc] at hrun
    simp only [dissolve, hinner] at hrun
    exact hrun

end EstreeLint.Estree.Convert

namespace EstreeLint.Estree

/-- A law under which chains are nodes like others. -/
structure Loose {file : SourceFile} (L : Law file) : Prop where
  chain : ∀ {r m}, m.type = .chainExpression → L.makes (r.nativeOf? m.id) m.type →
    (∀ c ∈ m.children, L.Good r c) → L.node r m ∧ L.bare r m
  inner : ∀ {r m}, m.type = .chainExpression → L.node r m → ∀ c ∈ m.children, L.bare r c

namespace Convert

variable {env : Env} {L : Law env.file} {Γ : Facts env.file} {n : Node}

/-- The types of node that a link is converted to. -/
def linkTypes : List NodeType :=
  [.memberExpression, .callExpression, .tsNonNullExpression, .chainExpression]

/-- A chain around a link keeps to a law if it does so itself. -/
lemma chain_good {link a : EsNode} {r s : Registry} (hmobile : Mobile env.file n.index)
    (hnoted : ∀ m ∈ link.nodes, Noted L.toTerms r m) (hlink : r.nativeOf? link.id = some n.index)
    (hkept : r.Kept env.file)
    (hnode : ∀ {s a}, r.Before env.file s → s.nativeOf? a.id = some n.index →
      a.type = .chainExpression → a.children = [link.inField .expression] →
      L.node s a ∧ L.bare s a)
    (hrun : make (some n) link.range .chainExpression [.one .expression link] env r = .ok (a, s)) :
    r.Before env.file s ∧ s.Kept env.file ∧ L.Good s a := by
  cases hrun
  have hbefore := @Registry.Before.next env.file r (some n.index)
  have hnative : (r.next (some n.index)).2.nativeOf? r.size = some n.index := by
    rw [Registry.nativeOf?_next, if_pos rfl]
  have hfield : ((link.inField .expression).field = .expression) := by cases link; rfl
  have hid : (link.inField .expression).id = link.id := by cases link; rfl
  have hroot := hnoted link (Tree.mem_nodes_self link)
  have hinner : ∀ m ∈ (link.inField .expression).nodes, Noted L.toTerms _ m :=
    Noted.inField (fun m hm => (hnoted m hm).later hbefore fun k hk =>
      (hnoted k (Tree.mem_nodes_trans hm hk)).lt_size) .expression
  have hsame : (r.next (some n.index)).2.nativeOf? (link.inField .expression).id =
      some n.index := by
    rw [hid, hbefore.nativeOf? hroot.lt_size, hlink]
  refine ⟨hbefore, hkept.next _, .ofNode ?_ ?_
    (fun _ => ⟨_, n.index, rfl, hfield, hnative, hsame, hmobile⟩) nofun nofun
    (hnode hbefore hnative rfl rfl) ?_⟩
  · exact Nat.lt_of_lt_of_eq (Nat.lt_succ_self _) Registry.size_next.symm
  · refine widenOver_start hroot.start fun c hc => ?_
    exact List.mem_singleton.1 hc ▸ (hinner _ (Tree.mem_nodes_self _)).start
  · exact fun c hc => List.mem_singleton.1 hc ▸ hinner

/-- A chain around a link under a law for which it is a node like others. -/
lemma loose_chain_good {link a : EsNode} {r s : Registry} (hloose : Loose L)
    (hmobile : Mobile env.file n.index) (hmakes : L.makes (some n.index) .chainExpression)
    (hgood : L.Good r link) (hlink : r.nativeOf? link.id = some n.index) (hkept : r.Kept env.file)
    (hrun : make (some n) link.range .chainExpression [.one .expression link] env r = .ok (a, s)) :
    r.Before env.file s ∧ s.Kept env.file ∧ L.Good s a := by
  refine chain_good hmobile hgood.noted hlink hkept (fun hbefore hnative htype hcs => ?_) hrun
  refine hloose.chain htype ((congrArg₂ L.makes hnative htype).mpr hmakes) fun c hc => ?_
  rw [hcs, List.mem_singleton] at hc
  exact hc ▸ (hgood.later hbefore).inField _

lemma wrapChain_gives {t : NodeType} {g : Field} {ps : List Part} (hloose : Loose L)
    (hn : n ∈ env.file.root.nodes) (htaken : TakenUp n) (hstart : L.first ≤ env.file.startOf n)
    (hmakes : ∀ t ∈ linkTypes, L.makes (some n.index) t) (hlink : LinkOf n t g ps)
    (hps : Entails Γ (.parts L ps)) : Gives env L Γ (finish n t ps >>= (wrapChain n · g)) where
  moves {r s a} hΓ hkept hrun := by
    have hmobile : Mobile env.file n.index := ⟨n, hn, rfl, htaken⟩
    obtain ⟨htype, hchain, hsequence⟩ : t ∈ linkTypes ∧ t ≠ .chainExpression ∧
        t ≠ .sequenceExpression := by
      cases hlink <;> decide
    obtain ⟨link, r₁, hmade, hwrapped⟩ := run_bind_eq_ok hrun
    have hnode : Makes L (some n) t := hmakes t htype
    obtain ⟨⟨hbefore₁, hkept₁, hgood⟩, htypeEq, hnative, hcs, -⟩ :=
      make_moves hstart (hps.of hΓ) hnode hchain (fun h => absurd h hsequence) hkept hmade
    have hchildren : ∀ c ∈ link.children, L.Good r₁ c := fun c hc =>
      (hps.of hΓ c (hcs ▸ hc)).later hbefore₁
    have hsub {c : EsNode} (hc : link.child? g = some c) : L.Good r₁ c :=
      hchildren c (mem_of_child? hc)
    have hchains (c : EsNode) (hc : link.child? g = some c) (ht : c.type = .chainExpression) :
        ∃ e, c.children = [e] ∧ e.field = .expression := by
      obtain ⟨e, -, hce, hfield, -⟩ := (hsub hc).root.chain ht
      exact ⟨e, hce, hfield⟩
    rcases wrapChain_run hchains hwrapped with
      ⟨-, ⟨-, rfl, rfl⟩ | ⟨-, hrun'⟩⟩ | ⟨c, e, hc, ht, hce, hrun'⟩
    · exact ⟨hbefore₁, hkept₁, hgood⟩
    · obtain ⟨hbefore₂, hkept₂, hgood₂⟩ :=
        loose_chain_good hloose hmobile (hmakes _ (by decide)) hgood hnative hkept₁ hrun'
      exact ⟨hbefore₁.trans hbefore₂, hkept₂, hgood₂⟩
    · obtain ⟨e', x, hce', -, hx, hex, hmoved⟩ := (hsub hc).root.chain ht
      obtain rfl : e = e' := List.cons.inj (hce.symm.trans hce') |>.1
      have he : L.Good r₁ e := (hsub hc).child (hce ▸ List.mem_singleton_self e)
        (hloose.inner ht (hsub hc).root.node e (hce ▸ List.mem_singleton_self e))
      obtain ⟨hbefore₂, hkept₂⟩ := Registry.redirect_kept hkept₁
        (fun y hy => Option.some.inj (hx.symm.trans hy) ▸ hmoved) (Option.isSome_of_mem hex)
      have hnative₂ := (hbefore₂.nativeOf? hgood.root.lt_size).trans hnative
      have hgood₂ : L.Good (r₁.redirect c.id e.id) (link.setChild g e) := by
        refine .atop (Nat.lt_of_lt_of_le hgood.root.lt_size hbefore₂.size_le)
          hgood.root.start ?_ ?_ ?_
          fun k hk => ?_
        · exact (congrArg₂ L.makes hnative₂ htypeEq).mpr hnode
        · exact fun h => hchain (htypeEq.symm.trans h)
        · exact fun h => absurd (htypeEq.symm.trans h) hsequence
        · rcases mem_children_setSlot hk with hk | ⟨m, hm, rfl⟩
          · exact (hchildren k hk).later hbefore₂
          · exact List.mem_singleton.1 hm ▸ (he.later hbefore₂).inField g
      obtain ⟨hbefore₃, hkept₃, hgood₃⟩ :=
        loose_chain_good hloose hmobile (hmakes _ (by decide)) hgood₂ hnative₂ hkept₂ hrun'
      exact ⟨(hbefore₁.trans hbefore₂).trans hbefore₃, hkept₃, hgood₃⟩

end Convert

/-! ### Exports -/

/-- A law that does not hang on where nodes stand. -/
structure Rangeless {file : SourceFile} (L : Law file) : Prop where
  node : ∀ {r m w loc}, L.node r m → L.node r (m.mapLabel fun l => { l with range := w, loc })
  bare : ∀ {r m w loc}, L.bare r m → L.bare r (m.mapLabel fun l => { l with range := w, loc })

namespace Convert

variable {env : Env} {L : Law env.file} {Γ : Facts env.file} {n : Node}

lemma restart_run {e a : EsNode} {p : Nat} {r s : Registry}
    (hrun : restart e p env r = .ok (a, s)) :
    s = r ∧ ∃ w loc, w = Tree.widenOver (Span.between p e.range.stop) e.children ∧
      a = e.mapLabel fun l => { l with range := w, loc } := by
  cases hrun
  obtain ⟨l, cs⟩ := e
  exact ⟨rfl, _, _, rfl, rfl⟩

lemma restart_loose {e : EsNode} {p : Nat} (hr : Rangeless L) [he : Entails Γ (.good L e)]
    [hp : Entails Γ (.fact (After L p))] : Gives env L Γ (restart e p) :=
  .look fun {r s a} hΓ hrun => by
    obtain ⟨rfl, w, loc, hw, rfl⟩ := restart_run hrun
    have hgood : L.Good s e := he.of hΓ
    have hcs : ∀ c ∈ e.children, ∀ k ∈ c.nodes, Noted L.toTerms s k := fun c hc k hk =>
      hgood.noted k (Tree.mem_nodes_trans (Tree.mem_nodes_of_mem hc) hk)
    obtain ⟨hlt, hstart, hchain, hsequence, hedited, hnode⟩ := hgood.root
    have hbare : L.bare s (e.mapLabel fun l => { l with range := w, loc }) := hr.bare hgood.bare
    have hnode : L.node s (e.mapLabel fun l => { l with range := w, loc }) := hr.node hnode
    obtain ⟨l, cs⟩ := e
    refine ⟨rfl, .ofNode hlt ?_ hchain hsequence hedited ⟨hnode, hbare⟩ hcs⟩
    exact hw ▸ widenOver_start (hp.of hΓ) fun c hc => (hcs c hc c (Tree.mem_nodes_self c)).start

lemma mem_modifier_of_words {k : TokenKind} {m : Node} (h : (k, m) ∈ words n) :
    m ∈ n.partsOf .modifier ∧ m.token? = some k := by
  obtain ⟨word, hm, hword⟩ := List.mem_filterMap.1 h
  obtain ⟨_, hk, heq⟩ := Option.map_eq_some_iff.1 hword
  obtain ⟨rfl, rfl⟩ := Prod.mk.inj heq
  exact ⟨hm, hk⟩

lemma wrapExport_loose {e : EsNode} (hr : Rangeless L) [he : Entails Γ (.good L e)]
    (hwords : ∀ m ∈ n.partsOf .modifier, L.first ≤ m.stop)
    (hmakes : ∀ t, isPlain t = true → L.makes (some n.index) t) :
    Gives env L Γ (wrapExport n e) := by
  unfold wrapExport
  split
  · next exportWord others h =>
    have hstop {k : TokenKind} {m : Node} (hm : (k, m) ∈ words n) : After L m.stop :=
      hwords m (mem_modifier_of_words hm).1
    have hnamed : Makes L (some n) .exportNamedDeclaration := hmakes _ rfl
    have hdefault : Makes L (some n) .exportDefaultDeclaration := hmakes _ rfl
    refine .given (hstop (h ▸ List.mem_cons_self)) (.bind inferInstance fun after => ?_)
    obtain ⟨_, after⟩ := after
    dsimp -zeta only
    extract_lets default? rest
    have hrest {Δ : Facts env.file} [Entails Δ (.good L e)] [Entails Δ (.good L after)] (p : Nat) :
        Gives env L ((Facts.good L p).both Δ) (rest p) := by
      refine .bind (restart_loose hr) fun inner => .ite (fun _ => ?_) fun _ => ?_
      · exact .given hdefault inferInstance
      · exact .given hnamed inferInstance
    clear_value rest
    cases hword : default? with
    | some word =>
      have hmem : (TokenKind.defaultKw, word) ∈ others := by
        unfold default? at hword
        split at hword
        · cases hword
          exact List.mem_cons_self
        · cases hword
      refine .given (hstop (h ▸ List.mem_cons_of_mem _ hmem)) (.bind inferInstance fun token => ?_)
      exact .bind inferInstance hrest
    | none => exact .bind inferInstance hrest
  · infer_instance

/-- A declaration is numbered and exported like any node. -/
lemma declared_loose {f : Form} {d : Draft f} (hr : Rangeless L) (hplain : Plain L n) :
    Gives env L ((Facts.good L d).both Γ) (declared n d) := by
  refine .known (Δ := (Facts.good L d).both ((Facts.fact (Plain L n)).both .none)) ?_ ?_
  · refine .bind (finish_draft_gives fun t ht => hplain.makes t (isPlain_of_declaredAs ht)) ?_
    refine fun e => wrapExport_loose hr (fun m hm => ?_) hplain.makes
    exact (L.inner_spotted (hplain.part m (Below.mem_of_partsOf hm))).stop
  · exact fun r h => ⟨h.1, hplain, trivial⟩

end Convert

end EstreeLint.Estree
