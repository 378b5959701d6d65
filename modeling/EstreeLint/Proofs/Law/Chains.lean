import EstreeLint.Proofs.Law.Dispatch
import Mathlib.Data.List.TakeWhile

/-!
Optional chains.

A link is a member, a call or `!`, and it has a subject. Whether a chain stands around a link is
decided at every link anew: the chain around its subject is dissolved and put around the link,
unless parentheses close it. What this comes to is told by one fact about each node: if an optional
link can be reached from a child along subjects, with no chain on the way, then the node is a chain
around that child, or a link of which the child is the subject. So the way up from an optional link
goes along links to a chain.
-/

namespace EstreeLint

namespace Tree

open Estree

/-- What a link is applied to. -/
def subject? (n : EsNode) : Option EsNode :=
  match n.type with
  | .memberExpression => n.child? .object
  | .callExpression => n.child? .callee
  | .tsNonNullExpression => n.child? .expression
  | _ => none

/-- The node is a member or a call behind `?.`. -/
def isOptionalLink (n : EsNode) : Bool :=
  (n.type == .memberExpression || n.type == .callExpression) &&
    n.value? .optional == some (.flag true)

end Tree

namespace Estree

/-- From the first node the second is reached along subjects. Since a chain has no subject, none
stands on the way. -/
inductive Spine : EsNode → EsNode → Prop
  | refl (a : EsNode) : Spine a a
  | step {a b m : EsNode} (h : a.subject? = some b) (hb : Spine b m) : Spine a m

/-- From the chain the node is reached along subjects, with no other chain on the way. -/
inductive ChainOver : EsNode → EsNode → Prop
  | head {h m : EsNode} (ht : h.type = .chainExpression) (hm : h.child? .expression = some m) :
    ChainOver h m
  | link {h b m : EsNode} (hb : ChainOver h b) (hm : b.subject? = some m) : ChainOver h m

/-- An optional link can be reached from the node. -/
def Open (a : EsNode) : Prop := ∃ m, Spine a m ∧ m.isOptionalLink = true

/-- What is known of the chains at a node. -/
structure ChainsAt (file : SourceFile) (r : Registry) (m : EsNode) : Prop where
  closed : ∀ h, m.subject? = some h → h.type = .chainExpression →
    ∃ n ∈ file.root.nodes, r.nativeOf? m.id = some n.index ∧ Convert.isClosed n = true
  heads : m.type = .chainExpression →
    ∃ e, m.child? .expression = some e ∧ e.type ≠ .chainExpression ∧ Open e
  up : ∀ c ∈ m.children, Open c →
    m.subject? = some c ∨ m.type = .chainExpression ∧ m.child? .expression = some c

variable {file : SourceFile} {r s : Registry} {a b c e m : EsNode} {n : Node}

/-! ### Links and chains -/

lemma subject?_of_not_link (h : a.type ∉ Convert.linkTypes) : a.subject? = none := by
  unfold Tree.subject?
  split <;> simp_all [Convert.linkTypes]

lemma subject?_of_chain (h : a.type = .chainExpression) : a.subject? = none := by
  simp [Tree.subject?, h]

lemma not_isOptionalLink (h : a.type ∉ Convert.linkTypes) : a.isOptionalLink = false := by
  unfold Tree.isOptionalLink
  have hmember : a.type ≠ .memberExpression := fun h' => h (by simp [h', Convert.linkTypes])
  have hcall : a.type ≠ .callExpression := fun h' => h (by simp [h', Convert.linkTypes])
  simp [hmember, hcall]

lemma not_open (hsubject : a.subject? = none) (hoptional : a.isOptionalLink = false) :
    ¬ Open a := by
  rintro ⟨m, h, hm⟩
  cases h with
  | refl => simp [hoptional] at hm
  | step h => simp [hsubject] at h

lemma not_open_of_chain (h : a.type = .chainExpression) : ¬ Open a :=
  not_open (subject?_of_chain h) (by simp [Tree.isOptionalLink, h])

lemma Open.of_subject (h : a.subject? = some b) (hb : Open b) : Open a := by
  obtain ⟨m, hm, ho⟩ := hb
  exact ⟨m, .step h hm, ho⟩

lemma Open.of_optional (h : a.isOptionalLink = true) : Open a := ⟨a, .refl a, h⟩

/-- Where a node stands does not matter. -/
lemma Open.of_same (htype : b.type = a.type) (hslots : b.label.slots = a.label.slots)
    (hcs : b.children = a.children) (h : Open a) : Open b := by
  obtain ⟨m, h, hm⟩ := h
  cases h with
  | refl =>
    refine .of_optional ?_
    rw [← hm, Tree.isOptionalLink, Tree.isOptionalLink, htype, Tree.value?, Tree.value?, hslots]
  | step h hb =>
    refine .of_subject ?_ ⟨m, hb, hm⟩
    rw [← h, Tree.subject?, Tree.subject?, htype]
    simp only [Tree.child?, hcs]

lemma open_inField (f : Field) : Open (a.inField f) ↔ Open a := by
  obtain ⟨l, cs⟩ := a
  exact ⟨.of_same rfl rfl rfl, .of_same rfl rfl rfl⟩

lemma ChainsAt.of_same (hid : b.id = a.id) (htype : b.type = a.type) (hcs : b.children = a.children)
    (h : ChainsAt file r a) : ChainsAt file r b := by
  have hsubject : b.subject? = a.subject? := by
    simp only [Tree.subject?, htype, Tree.child?, hcs]
  have hchild : b.child? .expression = a.child? .expression := by simp only [Tree.child?, hcs]
  obtain ⟨h₁, h₂, h₃⟩ := h
  refine ⟨?_, ?_, ?_⟩
  · rwa [hsubject, hid]
  · rwa [htype, hchild]
  · rwa [hcs, hsubject, htype, hchild]

/-- A node that is no link and no chain. -/
lemma ChainsAt.ofOther (htype : a.type ∉ Convert.linkTypes) (hcs : ∀ c ∈ a.children, ¬ Open c) :
    ChainsAt file r a where
  closed h hh := by simp [subject?_of_not_link htype] at hh
  heads h := absurd (by simp [h, Convert.linkTypes]) htype
  up c hc ho := absurd ho (hcs c hc)

lemma ChainsAt.ofLink (htype : a.type ≠ .chainExpression) (hn : n ∈ file.root.nodes)
    (hnative : r.nativeOf? a.id = some n.index)
    (hclosed : ∀ c, a.subject? = some c → c.type = .chainExpression → Convert.isClosed n = true)
    (hup : ∀ c ∈ a.children, Open c → a.subject? = some c) : ChainsAt file r a where
  closed c hc ht := ⟨n, hn, hnative, hclosed c hc ht⟩
  heads h := absurd h htype
  up c hc ho := .inl (hup c hc ho)

lemma ChainsAt.not_open_of_mem (h : ChainsAt file r a) (htype : a.type ∉ Convert.linkTypes)
    (hc : c ∈ a.children) : ¬ Open c := fun ho => by
  rcases h.up c hc ho with hsubject | ⟨hchain, -⟩
  · simp [subject?_of_not_link htype] at hsubject
  · exact htype (by simp [hchain, Convert.linkTypes])

lemma not_linkTypes_of_isPlain {t : NodeType} (h : isPlain t = true) : t ∉ Convert.linkTypes := by
  rintro ht
  simp only [Convert.linkTypes, List.mem_cons, List.not_mem_nil, or_false] at ht
  rcases ht with rfl | rfl | rfl | rfl <;> cases h

lemma not_linkTypes_of_isEdited {t : NodeType} (h : isEdited t = true) : t ∉ Convert.linkTypes := by
  rintro ht
  simp only [Convert.linkTypes, List.mem_cons, List.not_mem_nil, or_false] at ht
  rcases ht with rfl | rfl | rfl | rfl <;> cases h

/-! ### The law -/

/-- Chains are where they belong, and no optional link is handed on without a chain around it. -/
def chainLaw (file : SourceFile) : Law file where
  asks _ n := n ∈ file.root.nodes
  inner n := n ∈ file.root.nodes
  makes _ t := t ∉ Convert.linkTypes
  node := ChainsAt file
  bare _ a := ¬ Open a
  first_le := Terms.zero_le file
  node_inField := by
    rintro r ⟨l, cs⟩ f h
    exact .of_same (a := .node l cs) rfl rfl rfl h
  bare_inField f h := fun ho => h ((open_inField f).1 ho)
  node_later hrs hbelow h :=
    { h with
      closed := fun c hc ht => by
        rw [hrs.nativeOf? (hbelow _ (Tree.mem_nodes_self _))]
        exact h.closed c hc ht }
  bare_later _ _ h := h
  made hmakes _ hcs :=
    ⟨.ofOther hmakes fun c hc => (hcs c hc).bare,
      not_open (subject?_of_not_link hmakes) (not_isOptionalLink hmakes)⟩
  children ht hnode c hc := by
    refine hnode.not_open_of_mem ?_ hc
    rcases ht with ht | ht
    · exact not_linkTypes_of_isEdited ht
    · rw [ht]
      decide
  synthetic ht := not_linkTypes_of_isPlain ht
  inner_asks h := h
  inner_binds h _ := h
  inner_part h _ hm := Tree.mem_nodes_trans h (Tree.mem_nodes_of_mem (Below.mem_of_partsOf hm))
  inner_spotted h :=
    ⟨h, Nat.zero_le _, Nat.zero_le _, Nat.zero_le _, fun _ _ _ _ => Nat.zero_le _⟩
  inlined _ _ ht := not_linkTypes_of_isPlain ht

/-! ### Links under the law -/

lemma child?_setChild (f : Field) : (a.setChild f e).child? f = some (e.inField f) := by
  have hbefore :
      (a.children.takeWhile (·.field.number < f.number)).find? (·.field == f) = none := by
    refine List.find?_eq_none.2 fun c hc hf => ?_
    have hlt : c.field.number < f.number := by simpa using List.mem_takeWhile_imp hc
    rw [beq_iff_eq.1 hf] at hlt
    exact Nat.lt_irrefl _ hlt
  have hfield : (e.inField f).field = f := by cases e; rfl
  change List.find? _ (_ ++ [e.inField f] ++ _) = _
  rw [List.find?_append, List.find?_append, hbefore]
  simp [hfield]

namespace Convert

variable {env : Env} {Γ : Facts env.file} {t : NodeType} {g : Field}
  {ps : List Part} {link : EsNode}

lemma LinkOf.subject? (h : LinkOf n t g ps) (htype : a.type = t) : a.subject? = a.child? g := by
  cases h <;> simp [Tree.subject?, htype]

/-- A link is optional if `?.` was written, which it is not before `!`. -/
lemma LinkOf.isOptionalLink (h : LinkOf n t g ps) (htype : a.type = t)
    (hslots : a.label.slots = ps.filterMap Part.slot?)
    (hmark : n.kind = .form .nonNullExpression → n.part? .questionDot = none) :
    a.isOptionalLink = (n.part? .questionDot).isSome := by
  cases h with
  | nonNull e hk => simp [Tree.isOptionalLink, htype, hmark hk]
  | member computed object property =>
    have hvalue : a.value? .optional = some (.flag (n.part? .questionDot).isSome) := by
      rw [Tree.value?, hslots]
      rfl
    cases hmark : (n.part? .questionDot).isSome <;> simp [Tree.isOptionalLink, htype, hvalue, hmark]
  | call args callee typeArgs =>
    have hvalue : a.value? .optional = some (.flag (n.part? .questionDot).isSome) := by
      rw [Tree.value?, hslots]
      rfl
    cases hmark : (n.part? .questionDot).isSome <;> simp [Tree.isOptionalLink, htype, hvalue, hmark]

/-! ### A link and the chain around it -/

lemma noted_of_link (htype : a.type ∈ linkTypes) (hchain : a.type ≠ .chainExpression)
    (hlt : a.id < r.size) (hnode : ChainsAt file r a) : Noted (chainLaw file).toTerms r a :=
  ⟨hlt, Nat.zero_le _, fun h => absurd h hchain, fun h => absurd (h ▸ htype) (by decide),
    fun h => absurd htype (not_linkTypes_of_isEdited h), hnode⟩

/-- A chain around a link from which an optional link can be reached. -/
lemma open_chain_good (hmobile : Mobile env.file n.index)
    (hnoted : ∀ m ∈ link.nodes, Noted (chainLaw env.file).toTerms r m) (hopen : Open link)
    (hchain : link.type ≠ .chainExpression) (hnative : r.nativeOf? link.id = some n.index)
    (hkept : r.Kept env.file)
    (hrun : make (some n) link.range .chainExpression [.one .expression link] env r = .ok (a, s)) :
    r.Before env.file s ∧ s.Kept env.file ∧ (chainLaw env.file).Good s a := by
  refine chain_good hmobile hnoted hnative hkept (fun {t b} _ _ htype hcs => ?_) hrun
  have hfield : (link.inField .expression).field = .expression := by cases link; rfl
  have hinner : b.child? .expression = some (link.inField .expression) := by
    simp [Tree.child?, hcs, hfield]
  refine ⟨⟨?_, fun _ => ⟨_, hinner, ?_, (open_inField _).2 hopen⟩, ?_⟩, not_open_of_chain htype⟩
  · exact fun c hc => by simp [subject?_of_chain htype] at hc
  · cases link
    exact hchain
  · intro c hc _
    rw [hcs, List.mem_singleton] at hc
    exact .inr ⟨htype, hc ▸ hinner⟩

/-- **Whether a chain stands around a link**: none if no optional link is left open in it; if there
is one, it is that of the link or that of the chain which the link continues. -/
lemma openLink_gives (hn : n ∈ env.file.root.nodes) (htaken : TakenUp n)
    (hmark : n.kind = .form .nonNullExpression → n.part? .questionDot = none)
    (hlink : LinkOf n t g ps) (hps : Entails Γ (.parts (chainLaw env.file) ps)) :
    Gives env (chainLaw env.file) Γ (finish n t ps >>= (wrapChain n · g)) where
  moves {r s a} hΓ hkept hrun := by
    have hmobile : Mobile env.file n.index := ⟨n, hn, rfl, htaken⟩
    obtain ⟨htypes, hne⟩ : t ∈ linkTypes ∧ t ≠ .chainExpression := by cases hlink <;> decide
    obtain ⟨link, r₁, hmade, hwrapped⟩ := run_bind_eq_ok hrun
    obtain ⟨rfl, hid, htype, hcs, hslots⟩ := finish_run hmade
    have hbefore := @Registry.Before.next env.file r (some n.index)
    have hkept₁ := hkept.next (some n.index)
    have hsubject := hlink.subject? htype
    have hoptional := hlink.isOptionalLink htype hslots hmark
    have hchain : link.type ≠ .chainExpression := htype ▸ hne
    have hlinkType : link.type ∈ linkTypes := htype ▸ htypes
    have hnative : (r.next (some n.index)).2.nativeOf? link.id = some n.index := by
      rw [Registry.nativeOf?_next, if_pos hid]
    have hlt : link.id < (r.next (some n.index)).2.size := Registry.lt_size_of_nativeOf? hnative
    have hchildren : ∀ c ∈ link.children, (chainLaw env.file).Good (r.next (some n.index)).2 c :=
      fun c hc => (hps.of hΓ c (hcs ▸ hc)).later hbefore
    have hnode (hclosed : ∀ c, link.child? g = some c → c.type = .chainExpression →
        isClosed n = true) : ChainsAt env.file (r.next (some n.index)).2 link :=
      .ofLink hchain hn hnative (fun c hc => hclosed c (hsubject ▸ hc))
        fun c hc ho => absurd ho (hchildren c hc).bare
    have hchains (c : EsNode) (hc : link.child? g = some c) (ht : c.type = .chainExpression) :
        ∃ e, c.children = [e] ∧ e.field = .expression := by
      obtain ⟨e, -, hce, hfield, -⟩ := (hchildren c (mem_of_child? hc)).root.chain ht
      exact ⟨e, hce, hfield⟩
    rcases wrapChain_run hchains hwrapped with
      ⟨hclosed, ⟨hno, rfl, rfl⟩ | ⟨hyes, hrun'⟩⟩ | ⟨c, e, hc, ht, hce, hrun'⟩
    · refine ⟨hbefore, hkept₁,
        ⟨Tree.forall_mem_nodes.2 ⟨?_, fun c hc => (hchildren c hc).noted⟩, ?_⟩⟩
      · exact noted_of_link hlinkType hchain hlt (hnode hclosed)
      · rintro ⟨m, hspine, hm⟩
        cases hspine with
        | refl => simp [hoptional, hno] at hm
        | step hb hspine =>
          exact (hchildren _ (mem_of_child? (hsubject ▸ hb))).bare ⟨m, hspine, hm⟩
    · have hnoted : ∀ m ∈ link.nodes, Noted (chainLaw env.file).toTerms _ m :=
        Tree.forall_mem_nodes.2 ⟨noted_of_link hlinkType hchain hlt (hnode hclosed),
          fun c hc => (hchildren c hc).noted⟩
      obtain ⟨hbefore₂, hkept₂, hgood⟩ := open_chain_good hmobile hnoted
        (.of_optional (hoptional.trans hyes)) hchain hnative hkept₁ hrun'
      exact ⟨hbefore.trans hbefore₂, hkept₂, hgood⟩
    · -- the chain that the link continues is taken apart: what it stood around is open
      have hsub := hchildren c (mem_of_child? hc)
      obtain ⟨e', x, hce', -, hx, hex, hmoved⟩ := hsub.root.chain ht
      obtain rfl : e = e' := List.cons.inj (hce.symm.trans hce') |>.1
      obtain ⟨e', he', heType, heOpen⟩ := hsub.root.node.heads ht
      obtain rfl : e = e' := List.mem_singleton.1 (hce ▸ mem_of_child? he') |>.symm
      obtain ⟨hbefore₂, hkept₂⟩ := Registry.redirect_kept hkept₁
        (fun y hy => Option.some.inj (hx.symm.trans hy) ▸ hmoved) (Option.isSome_of_mem hex)
      set r₂ := (r.next (some n.index)).2.redirect c.id e.id
      have hnative₂ : r₂.nativeOf? (link.setChild g e).id = some n.index :=
        (hbefore₂.nativeOf? hlt).trans hnative
      have hsubject₂ : (link.setChild g e).subject? = some (e.inField g) :=
        (hlink.subject? (a := link.setChild g e) htype).trans (child?_setChild g)
      have heNoted : ∀ m ∈ e.nodes, Noted (chainLaw env.file).toTerms _ m := fun m hm =>
        hsub.noted m
          (Tree.mem_nodes_trans (Tree.mem_nodes_of_mem (hce ▸ List.mem_singleton_self e)) hm)
      have hnode₂ : ChainsAt env.file r₂ (link.setChild g e) := by
        refine .ofLink hchain hn hnative₂ (fun d hd hdt => ?_) fun d hd ho => ?_
        · obtain rfl := Option.some.inj (hsubject₂.symm.trans hd)
          refine absurd ?_ heType
          cases e
          exact hdt
        · rcases mem_children_setSlot hd with hd | ⟨m, hm, rfl⟩
          · exact absurd ho (hchildren d hd).bare
          · exact List.mem_singleton.1 hm ▸ hsubject₂
      have hnoted₂ : ∀ m ∈ (link.setChild g e).nodes,
          Noted (chainLaw env.file).toTerms r₂ m := by
        refine Tree.forall_mem_nodes.2 ⟨noted_of_link hlinkType hchain
          (Registry.lt_size_of_nativeOf? hnative₂) hnode₂, fun d hd => ?_⟩
        rcases mem_children_setSlot hd with hd | ⟨m, hm, rfl⟩
        · exact ((hchildren d hd).later hbefore₂).noted
        · rw [List.mem_singleton.1 hm]
          refine Noted.inField (L := chainLaw env.file) (fun k hk => ?_) g
          exact (heNoted k hk).later hbefore₂ fun i hi =>
            (heNoted i (Tree.mem_nodes_trans hk hi)).lt_size
      obtain ⟨hbefore₃, hkept₃, hgood⟩ := open_chain_good hmobile hnoted₂
        (.of_subject hsubject₂ ((open_inField g).2 heOpen)) hchain hnative₂ hkept₂ hrun'
      exact ⟨(hbefore.trans hbefore₂).trans hbefore₃, hkept₃, hgood⟩

end Convert

/-! ### All rules -/

lemma chainLaw_rangeless : Rangeless (chainLaw file) where
  node {r m w loc} h := by
    obtain ⟨l, cs⟩ := m
    exact .of_same (a := .node l cs) rfl rfl rfl h
  bare {r m w loc} h ho := by
    obtain ⟨l, cs⟩ := m
    exact h (.of_same (a := .node { l with range := w, loc } cs) rfl rfl rfl ho)

lemma chainLaw_plain (hn : n ∈ file.root.nodes) : Plain (chainLaw file) n where
  mem := hn
  pos := Nat.zero_le _
  start := Nat.zero_le _
  stop := Nat.zero_le _
  list _ _ _ _ := Nat.zero_le _
  opening _ _ := Nat.zero_le _
  part _ hm := Tree.mem_nodes_trans hn (Tree.mem_nodes_of_mem hm)
  makes _ ht := not_linkTypes_of_isPlain ht

theorem chainLaw_upheld (h : Parsed file) : (chainLaw file).Upheld := by
  intro place depth n hasked hn
  have hplain : Plain (chainLaw file) n := chainLaw_plain hn
  have hparts : ∀ m ∈ n.children, m ∈ file.root.nodes := hplain.part
  refine Convert.byRule_gives (fun f hf hk => ?_) fun _ => hplain
  rcases List.mem_append.1 hf with hf | hf
  · rcases List.mem_append.1 hf with hf | hf
    · exact Convert.targetRule_gives hplain hk hf hparts
        fun _ _ => show NodeType.sequenceExpression ∉ Convert.linkTypes by decide
    · refine .given hplain (Convert.link_gives hf hk fun hlink hps => ?_)
      refine Convert.openLink_gives hn (.inl ⟨f, hf, hk⟩) (fun hkind => ?_) hlink hps
      refine Option.eq_none_iff_forall_not_mem.2 fun m hm => ?_
      have hmet := (h.shaped n hn).parts .questionDot m (mem_partsOf_of_part? hm)
      rw [hkind] at hmet
      exact hmet
  · exact Convert.exportRule_gives hplain chainLaw_rangeless hk hf fun _ _ _ => Parsed.mem_part

/-! ### Chains in a converted tree -/

lemma ChainOver.along (h : ChainOver c a) (hm : Spine a m) : ChainOver c m := by
  induction hm with
  | refl => exact h
  | step hb _ ih => exact ih (.link h hb)

lemma mem_of_subject? (h : a.subject? = some b) : b ∈ a.children := by
  unfold Tree.subject? at h
  split at h <;> first | exact mem_of_child? h | cases h

/-- From the tree, or from a chain in it, an optional link in it is reached. -/
lemma reached_of_chainsAt (hnodes : ∀ k ∈ a.nodes, ChainsAt file r k) (hm : m ∈ a.nodes)
    (ho : m.isOptionalLink = true) : Spine a m ∨ ∃ h ∈ a.nodes, ChainOver h m := by
  generalize hk : a.height = k
  induction k using Nat.strongRecOn generalizing a with
  | ind k ih =>
    rw [Tree.nodes_eq, List.mem_cons] at hm
    rcases hm with rfl | hm
    · exact .inl (.refl m)
    · obtain ⟨c, hc, hmc⟩ := Tree.mem_forestNodes.1 hm
      have hsub : ∀ k ∈ c.nodes, k ∈ a.nodes := fun k hk =>
        Tree.mem_nodes_trans (Tree.mem_nodes_of_mem hc) hk
      have hlt := Tree.height_lt_of_mem hc
      rcases ih c.height (by omega) (fun k hk => hnodes k (hsub k hk)) hmc rfl with
        hspine | ⟨h, hh, hover⟩
      · rcases (hnodes a (Tree.mem_nodes_self a)).up c hc ⟨m, hspine, ho⟩ with hs | ⟨ht, he⟩
        · exact .inl (.step hs hspine)
        · exact .inr ⟨a, Tree.mem_nodes_self a, (ChainOver.head ht he).along hspine⟩
      · exact .inr ⟨h, hsub h hh, hover⟩

/-- A node has one chain over it at most. -/
lemma ChainOver.unique {root h h' : EsNode} (hids : (root.nodes.map Tree.id).Nodup)
    (hh : h ∈ root.nodes) (hh' : h' ∈ root.nodes) (hm : ChainOver h m) (hm' : ChainOver h' m) :
    h = h' := by
  have hparent {p q x : EsNode} (hp : p ∈ root.nodes) (hq : q ∈ root.nodes) (hxp : x ∈ p.children)
      (hxq : x ∈ q.children) : p = q := Tree.parent_unique (.of_map _ hids) hp hq hxp hxq
  have hmem {c x : EsNode} (hc : c ∈ root.nodes) (hx : ChainOver c x) : x ∈ root.nodes := by
    induction hx with
    | head _ hx => exact Tree.mem_nodes_trans hc (Tree.mem_nodes_of_mem (mem_of_child? hx))
    | link _ hx ih => exact Tree.mem_nodes_trans ih (Tree.mem_nodes_of_mem (mem_of_subject? hx))
  induction hm with
  | head ht hx =>
    cases hm' with
    | head _ hx' => exact hparent hh hh' (mem_of_child? hx) (mem_of_child? hx')
    | link hb hx' =>
      obtain rfl := hparent hh (hmem hh' hb) (mem_of_child? hx) (mem_of_subject? hx')
      simp [subject?_of_chain ht] at hx'
  | link hb hx ih =>
    cases hm' with
    | head ht hx' =>
      obtain rfl := hparent hh' (hmem hh hb) (mem_of_child? hx') (mem_of_subject? hx)
      simp [subject?_of_chain ht] at hx
    | link hb' hx' =>
      obtain rfl := hparent (hmem hh hb) (hmem hh' hb') (mem_of_subject? hx) (mem_of_subject? hx')
      exact ih hb'

/-- Where the chains of a conversion are. -/
structure ChainsFit (file : SourceFile) (c : Conversion) : Prop where
  /-- Every optional link is reached from one chain. -/
  covered : ∀ m ∈ c.program.nodes, m.isOptionalLink = true →
    ∃ h ∈ c.program.nodes, ChainOver h m ∧ ∀ h' ∈ c.program.nodes, ChainOver h' m → h' = h
  /-- From every chain an optional link is reached. -/
  reaches : ∀ h ∈ c.program.nodes, h.type = .chainExpression →
    ∃ m ∈ c.program.nodes, m.isOptionalLink = true ∧ ChainOver h m
  /-- Where the subject of a link is a chain, that of the syntax node is in parentheses. -/
  closed : ∀ l ∈ c.program.nodes, ∀ h, l.subject? = some h → h.type = .chainExpression →
    ∃ n ∈ file.root.nodes, c.registry.nativeOf? l.id = some n.index ∧ Convert.isClosed n = true
  apart : ∀ h ∈ c.program.nodes, h.type = .chainExpression →
    ∀ e, h.child? .expression = some e → e.type ≠ .chainExpression

lemma Spine.mem (h : Spine a m) : m ∈ a.nodes := by
  induction h with
  | refl => exact Tree.mem_nodes_self _
  | step hb _ ih => exact Tree.mem_nodes_trans (Tree.mem_nodes_of_mem (mem_of_subject? hb)) ih

/-- **In a converted file chains are where they belong.** -/
theorem chains_fit (name : String) (text : Source) (c : Conversion)
    (h : Conversion.ofFile (SourceFile.parse name text) = .ok c) :
    ChainsFit (SourceFile.parse name text) c := by
  have hgood := (ofFile_moves (sitedIn_parse name text) (chainLaw_upheld (parsed_parse name text))
    (chainLaw_plain (Tree.mem_nodes_self _)) h).good
  have hnodes : ∀ m ∈ c.program.nodes, ChainsAt (SourceFile.parse name text) c.registry m :=
    fun m hm => (hgood.noted m hm).node
  refine ⟨fun m hm ho => ?_, fun h hh ht => ?_, fun l hl => (hnodes l hl).closed,
    fun h hh ht e he => ?_⟩
  · rcases reached_of_chainsAt hnodes hm ho with hspine | ⟨h, hh, hover⟩
    · exact absurd ⟨m, hspine, ho⟩ hgood.bare
    · exact ⟨h, hh, hover, fun h' hh' hover' =>
        ChainOver.unique (fitsTree_ofFile ‹_›).distinct hh' hh hover' hover⟩
  · obtain ⟨e, he, -, m, hspine, ho⟩ := (hnodes h hh).heads ht
    refine ⟨m, ?_, ho, (ChainOver.head ht he).along hspine⟩
    exact Tree.mem_nodes_trans hh
      (Tree.mem_nodes_trans (Tree.mem_nodes_of_mem (mem_of_child? he)) hspine.mem)
  · obtain ⟨e', he', hne, -⟩ := (hnodes h hh).heads ht
    exact Option.some.inj (he.symm.trans he') ▸ hne

/-- A chain that goes on, through `!`, to the end, in parentheses under another one. -/
def nestedChains : Source := "(a?.b!.c).d?.[e](f?.g)!".toList

set_option maxRecDepth 10000 in
theorem nestedChains_fit :
    ∃ c, Conversion.ofFile (SourceFile.parse "a.ts" nestedChains) = .ok c ∧
      ChainsFit (SourceFile.parse "a.ts" nestedChains) c := by
  have hok : (Conversion.ofFile (SourceFile.parse "a.ts" nestedChains)).isOk = true := by
    decide +kernel
  obtain ⟨c, h⟩ := Conversion.exists_of_isOk hok
  exact ⟨c, h, chains_fit _ _ c h⟩

end Estree

end EstreeLint
