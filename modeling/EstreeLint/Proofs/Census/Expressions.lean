import EstreeLint.Proofs.Census.Types

/-!
The rules for expressions spend what they convert.

A chain or a sequence that is taken up into the next one is dropped with its number only, and the
new node answers for it.
-/

namespace EstreeLint.Estree.Convert

variable {env : Env} (hr : Counts env) {n : Node} (hs : SitedIn env.file n)

include hr hs

/-! ### Arrays and objects -/

lemma arrayLiteral_spends : Spends env 0 (arrayLiteral n) (Proper env.file) := by
  refine .after isTarget_looks fun t _ => ?_
  refine (childrenOrHoles_spends hr hs _ t).bind fun elements he => ?_
  refine .after isTarget_looks fun t _ => .branch (finish_spends hs ?_ (.plain rfl) (by simp))
    (finish_spends hs ?_ (.plain rfl) (by simp)) <;>
    simpa using he

lemma objectLiteral_spends : Spends env 0 (objectLiteral n) (Proper env.file) := by
  refine .after isTarget_looks fun t _ => ?_
  refine (convertAll_spends hr hs t fun _ h => (List.mem_filter.1 h).1).bind fun properties hp => ?_
  refine .after isTarget_looks fun t _ => .branch (finish_spends hs ?_ (.plain rfl) (by simp))
    (finish_spends hs ?_ (.plain rfl) (by simp)) <;>
    simpa using hp

lemma propertyAssignment_spends : Spends env 0 (propertyAssignment n) (Proper env.file) := by
  refine (child_spends hr hs _).bind fun key hk => .after isTarget_looks fun t _ => ?_
  have done (value : EsNode) (hv : Proper env.file value) :
      Spends env (ids value + (ids key + 0)) (finish n .property
        (propertyParts (isComputed n .name) key "init" false false false value))
        (Proper env.file) :=
    finish_spends hs (by simp [propertyParts, isComputed, hk, hv]) (.plain rfl)
      (by simp [isComputed, add_comm])
  exact .branch ((target_spends hr hs _).bind done) ((child_spends hr hs _).bind done)

lemma shorthandProperty_spends : Spends env 0 (shorthandProperty n) (Proper env.file) := by
  refine (child_spends hr hs .name).bind fun key hk => ?_
  have done (value : EsNode) (hv : Proper env.file value) :
      Spends env (ids value + (ids key + 0)) (finish n .property
        (propertyParts (.flag .isComputed false) key "init" false false true value))
        (Proper env.file) :=
    finish_spends hs (by simp [propertyParts, hk, hv]) (.plain rfl) (by simp [add_comm])
  refine .branch ?_ ((child_spends hr hs _).bind done)
  have value : Spends env 0
      (do
        let left ← target n .name
        let right ← child n .initializer
        make none (← tokensOf n) .assignmentPattern (assignmentParts left right))
      (Proper env.file) := by
    refine (target_spends hr hs _).bind fun left hl => ?_
    refine (child_spends hr hs _).bind fun right hright => ?_
    exact .after (tokensOf_looks hs) fun r hrange =>
      make_spends hrange.2 (by simp [assignmentParts, hl, hright]) (.plain rfl) (by simp [add_comm])
  simpa using value.bind done

lemma spread_spends : Spends env 0 (spread n) (Proper env.file) := by
  refine .after isTarget_looks fun t _ => .branch ?_ ?_
  · exact (target_spends hr hs _).bind fun a ha => finish_spends hs (by simpa [restParts] using ha)
      (.plain rfl) (by simp)
  · exact (child_spends hr hs _).bind fun a ha => finish_spends hs (by simpa using ha)
      (.plain rfl) (by simp)

/-! ### Chains -/

omit hr hs in
/-- The chain is dropped, and the node in it answers for it. -/
lemma dissolve_spends {chain : EsNode} (h : Proper env.file chain)
    (ht : chain.type = .chainExpression) :
    Spends env (ids chain) (dissolve chain) (fun inner =>
      Proper env.file inner ∧ ids chain = ids inner + {chain.id}) := by
  obtain ⟨inner, hinner⟩ := List.length_eq_one_iff.1 (h.regular.seated.single ht)
  have hmem : inner ∈ chain.children := by simp [hinner]
  have hfield : inner.field = .expression :=
    h.regular.seated.fields .expression (by rw [ht]; rfl) inner hmem
  have hids : ids chain = ids inner + {chain.id} := by
    rw [ids_eq, hinner, add_comm]
    simp
  have hchild : chain.child? .expression = some inner := by simp [Tree.child?, hinner, hfield]
  unfold dissolve
  rw [hchild, hids]
  exact .redirecting ⟨h.child hmem, rfl⟩

/-- A link of a chain, whose subject stands in a field of its own. -/
structure Linked (link : EsNode) (f : Field) : Prop where
  ordered : InOrder link
  single : (link.childrenIn f).length ≤ 1
  plain : soleField? link.type = none

omit hr hs in
lemma wrapChain_spends {link : EsNode} {f : Field} (h : Proper env.file link) (hl : Linked link f) :
    Spends env (ids link) (wrapChain n link f) (Proper env.file) := by
  unfold wrapChain
  extract_lets optional closed subject? continues rest
  refine .branch (.pure rfl h) ?_
  have hrest (link : EsNode) (h : Proper env.file link) :
      Spends env (ids link) (rest link) (Proper env.file) :=
    make_spends h.regular.bounds (by simpa using h) (.one fun g hg => (Option.some.inj hg).symm)
      (by simp)
  refine .ite (fun hcontinues => ?_) fun _ => hrest _ h
  obtain ⟨-, hany⟩ := Bool.and_eq_true_iff.1 hcontinues
  obtain ⟨chain, hsubject, htype⟩ := (Option.any_eq_true _ _).1 hany
  have hchain : link.childrenIn f = [chain] := by
    have hhead : (link.childrenIn f).head? = some chain := by
      rw [Tree.childrenIn, List.head?_filter]
      exact hsubject
    obtain ⟨others, hothers⟩ := List.head?_eq_some_iff.1 hhead
    have hsingle := hl.single
    rw [hothers] at hsingle ⊢
    simpa using hsingle
  have hmem : chain ∈ link.children := mem_of_child? hsubject
  obtain ⟨more, hmore⟩ := ids_of_mem_children hmem
  rw [hsubject]
  refine .sub (dissolve_spends (h.child hmem) (by simpa using htype)) hmore fun inner hinner => ?_
  have hids : ids (link.setChild f inner) = ids inner + more := by
    have hset : ids (link.setChild f inner) + ids (link.childrenIn f) = ids link + ids [inner] :=
      ids_setSlot hl.ordered
    rw [hchain, hmore, ids_cons, ids_cons, ids_nil, add_zero, add_zero] at hset
    refine add_right_cancel (b := ids chain) (hset.trans ?_)
    abel
  rw [← hids]
  exact hrest _ (h.setSlot (by simpa using hinner.1) hl.plain)

omit hr in
lemma link_spends (subject : EsNode) {type : NodeType} {parts : List Part} {f : Field}
    {held : Multiset Nat} (hparts : PartsHold (Proper env.file) parts)
    (hplain : soleField? type = none)
    (hordered : (parts.flatMap Part.nodes).Pairwise (·.field.number ≤ ·.field.number))
    (hsingle : parts.filter (·.field? == some f) = [.one f subject])
    (hids : ids parts = held) :
    Spends env held (finish n type parts >>= fun link => wrapChain n link f) (Proper env.file) := by
  have hlink : Spends env held (finish n type parts)
      (fun link => Proper env.file link ∧ Linked link f) := by
    refine finish_spends_as hs hids fun l ht hl => ?_
    rw [← ht] at hplain
    refine ⟨proper_node hparts hs.range hl (.plain hplain), hordered, ?_, hplain⟩
    change ((parts.flatMap Part.nodes).filter (·.field == f)).length ≤ 1
    rw [Part.filter_nodes, hsingle]
    exact Nat.le_refl 1
  exact hlink.andThen fun link h => wrapChain_spends h.1 h.2

lemma memberExpression_spends : Spends env 0 (memberExpression n) (Proper env.file) := by
  refine (child_spends hr hs _).bind fun object ho => ?_
  refine (child_spends hr hs _).bind fun property hp => ?_
  refine link_spends hs object (by simp [ho, hp]) rfl ?_ rfl (by simp [add_comm])
  exact Part.ordered [.isComputed, .object, .optional, .property] rfl (by decide)

lemma importExpression_spends : Spends env 0 (importExpression n) (Proper env.file) := by
  have hsited : ∀ m ∈ n.partsOf .argument, SitedIn env.file m := fun _ hm => hs.of_partsOf hm
  unfold importExpression
  cases h : n.partsOf .argument with
  | nil => exact .throw _
  | cons source rest =>
    rw [h] at hsited
    refine Spends.bind (convertPart_spends hr n false (hsited _ (by simp))) fun source hsource => ?_
    refine (Spends.mapM? rest.head? fun m hm => convertPart_spends hr n false
      (hsited m (List.mem_cons_of_mem _ (List.mem_of_mem_head? hm)))).bind fun options ho => ?_
    exact finish_spends hs (by simp_all) (.plain rfl) (by simp)

lemma callExpression_spends : Spends env 0 (callExpression n) (Proper env.file) := by
  refine .branch (importExpression_spends hr hs) ?_
  refine (child_spends hr hs _).bind fun callee hc => ?_
  refine (typeArguments?_spends hr hs).bind fun typeArgs ht => ?_
  refine (children_spends hr hs _).bind fun args ha => ?_
  refine link_spends hs callee (by simp_all) rfl ?_ ?_ (by simp [add_comm])
  · cases typeArgs with
    | none => exact Part.ordered [.arguments, .callee, .optional] rfl (by decide)
    | some _ => exact Part.ordered [.arguments, .callee, .optional, .typeArguments] rfl (by decide)
  · cases typeArgs <;> rfl

lemma nonNull_spends : Spends env 0 (nonNull n) (Proper env.file) := by
  refine (child_spends hr hs _).bind fun e he => ?_
  exact link_spends hs e (by simpa using he) rfl (Part.ordered [.expression] rfl (by decide)) rfl
    (by simp)

/-! ### Calls, templates and operators -/

lemma newExpression_spends : Spends env 0 (newExpression n) (Proper env.file) := by
  refine (child_spends hr hs _).bind fun callee hc => ?_
  refine (typeArguments?_spends hr hs).bind fun typeArgs ht => ?_
  exact (children_spends hr hs _).bind fun args ha => finish_spends hs (by simp_all)
    (.plain rfl) (by simp [add_comm])

lemma taggedTemplate_spends : Spends env 0 (taggedTemplate n) (Proper env.file) := by
  refine (child_spends hr hs _).bind fun tag ht => ?_
  refine (typeArguments?_spends hr hs).bind fun typeArgs ht => ?_
  exact (child_spends hr hs _).bind fun quasi hq => finish_spends hs (by simp_all)
    (.plain rfl) (by simp [add_comm])

lemma templateExpression_spends : Spends env 0 (templateExpression n) (Proper env.file) :=
  (templateParts_spends hr hs).bind fun (_, _) hp => finish_spends hs (by simpa using hp.symm)
    (.plain rfl) (by simp [add_comm])

lemma wordOperator_spends (operator : String) :
    Spends env 0 (wordOperator n operator) (Proper env.file) :=
  (child_spends hr hs _).bind fun _ ha => finish_spends hs (by simpa [unaryParts] using ha)
    (.plain rfl) (by simp)

lemma unaryExpression_spends : Spends env 0 (unaryExpression n) (Proper env.file) := by
  unfold unaryExpression
  cases n.word? with
  | none => exact .throw _
  | some k =>
    dsimp only
    cases k.text? with
    | none => exact .throw _
    | some operator =>
      refine (child_spends hr hs _).bind fun argument ha => ?_
      refine .branch (finish_spends hs ?_ (.plain rfl) (by simp)) (finish_spends hs ?_
        (.plain rfl) (by simp)) <;> simpa [unaryParts] using ha

lemma sequence_spends : Spends env 0 (sequence n) (Proper env.file) := by
  refine (child_spends hr hs _).bind fun left hl => ?_
  extract_lets closed continues earlier
  refine (child_spends hr hs _).bind fun right hright => ?_
  have seated : Seated .sequenceExpression
      ([.list .expressions (earlier ++ [right])].flatMap Part.nodes) :=
    .list _ (fun g hg => (Option.some.inj hg).symm) nofun
  by_cases hcontinues : continues = true
  · have htype : left.type = .sequenceExpression := by
      simpa using (Bool.and_eq_true_iff.1 hcontinues).1
    have hearlier : earlier = left.children :=
      (if_pos hcontinues).trans <| List.filter_eq_self.2 fun c hc => by
        simpa using hl.regular.seated.fields .expressions (by rw [htype]; rfl) c hc
    have hids : ids right + (ids left + 0) = ids left.children + ids right + {left.id} := by
      rw [ids_eq left]
      abel
    rw [hearlier] at seated ⊢
    refine (finish_spends hs ?_ seated (by simp)).sub hids fun whole hw => ?_
    · simp only [partsHold_list, List.mem_append, List.mem_singleton]
      refine ⟨?_, partsHold_nil⟩
      rintro c (hc | rfl)
      · exact hl.child hc
      · exact hright
    · rw [if_pos hcontinues]
      exact .redirecting hw
  · have hearlier : earlier = [left] := if_neg hcontinues
    rw [hearlier] at seated ⊢
    refine (finish_spends hs (by simp [hl, hright]) seated (by simp [add_comm])).andThen
      fun whole hw => ?_
    rw [if_neg hcontinues]
    exact .pure rfl hw

lemma binaryExpression_spends : Spends env 0 (binaryExpression n) (Proper env.file) := by
  unfold binaryExpression
  cases (n.part? .operator).bind (·.token?) with
  | none => exact .throw _
  | some k =>
    refine .branch (sequence_spends hr hs) ?_
    cases k.text? with
    | none => exact .throw _
    | some operator =>
      refine .branch ?_ ?_
      · refine (target_spends hr hs _).bind fun left hl => ?_
        refine (child_spends hr hs _).bind fun right hright => ?_
        refine .after isTarget_looks fun t _ => .branch
          (finish_spends hs ?_ (.plain rfl) (by simp [add_comm]))
          (finish_spends hs ?_ (.plain rfl) (by simp [add_comm]))
        · simp [assignmentParts, hl, hright]
        · simp [operationParts, hl, hright]
      · refine (child_spends hr hs _).bind fun left hl => ?_
        refine (child_spends hr hs _).bind fun right hright =>
          finish_spends hs ?_ ?_ (by simp [add_comm])
        · simp [operationParts, hl, hright]
        · split <;> exact .plain rfl

lemma conditionalExpression_spends : Spends env 0 (conditionalExpression n) (Proper env.file) := by
  refine (child_spends hr hs _).bind fun test ht => ?_
  refine (child_spends hr hs _).bind fun whenTrue hwt => ?_
  exact (child_spends hr hs _).bind fun whenFalse hwf => finish_spends hs (by simp_all)
    (.plain rfl) (by simp)

lemma yieldExpression_spends : Spends env 0 (yieldExpression n) (Proper env.file) :=
  (child?_spends hr hs _).bind fun _ ha => finish_spends hs (by simpa using ha)
    (.plain rfl) (by simp)

lemma typedExpression_spends (type : NodeType) (htype : soleField? type = none) :
    Spends env 0 (typedExpression n type) (Proper env.file) := by
  refine .branch ?_ ?_
  · refine (child_spends hr hs _).bind fun t ht => (child_spends hr hs _).bind fun e he => ?_
    exact finish_spends hs (by simp [he, ht]) (.plain htype) (by simp)
  · refine (child_spends hr hs _).bind fun e he => (child_spends hr hs _).bind fun t ht => ?_
    exact finish_spends hs (by simp [he, ht]) (.plain htype) (by simp [add_comm])

lemma metaProperty_spends : Spends env 0 (metaProperty n) (Proper env.file) := by
  unfold metaProperty
  cases n.word?.bind TokenKind.text? with
  | none => exact .throw _
  | some word =>
    refine .after (tokensOf_looks hs) fun whole hwhole => ?_
    refine .after (tokenAt_looks hwhole.2.start) fun r hrange => ?_
    refine (make_spends hrange (by simp [identifierParts])
      (.plain rfl) (by simp)).bind fun metaName hm => ?_
    exact (child_spends hr hs _).bind fun property hp => finish_spends hs (by simp_all)
      (.plain rfl) (by simp [add_comm])

lemma heritageType_spends (type : NodeType) (htype : soleField? type = none) :
    Spends env 0 (heritageType n type) (Proper env.file) := by
  refine (child_spends hr hs _).bind fun e he => ?_
  exact (typeArguments?_spends hr hs).bind fun args ha =>
    finish_spends hs (by simp_all) (.plain htype) (by simp [add_comm])

lemma instantiation_spends : Spends env 0 (instantiation n) (Proper env.file) := by
  refine (child_spends hr hs _).bind fun e he => ?_
  refine (typeArguments?_spends hr hs).bind fun args ha => ?_
  cases args with
  | none => exact .throw _
  | some args => exact finish_spends hs (by simp_all) (.plain rfl) (by simp [add_comm])

end EstreeLint.Estree.Convert
