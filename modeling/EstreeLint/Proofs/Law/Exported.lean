import EstreeLint.Proofs.Law.Dispatch

/-!
Exports around declarations.

A declaration whose first word is `export` becomes two nodes: the declaration itself, which answers
for the syntax node, and an export around it. Both start anew, and nothing in the declaration starts
before it, which is a law of its own: `frontLaw`.
-/

namespace EstreeLint

namespace Scanner

open Text

variable {text : Source} {p : Nat}

/-- The token behind a cut starts where the trivia behind the cut stop. -/
lemma tokenAt_start (variant : Variant) (h : IsCut text p) :
    (tokenAt text variant p).2.1 = Trivia.skip text p := by
  have hpos : ((ofSource text variant true).reset p).tokenEnd = p :=
    Nat.min_eq_left h.isBoundary.le_bytes
  have hskip : Trivia.skip text ((ofSource text variant true).reset p).tokenEnd =
      ((ofSource text variant true).reset p).scan.tokenStart :=
    (scan_clear (σ := (ofSource text variant true).reset p) rfl rfl (reset_cuts variant h)).2
  rw [hpos] at hskip
  exact hskip.symm

lemma le_skip (h : IsCut text p) : p ≤ Trivia.skip text p := by
  rw [← tokenAt_start .standard h]
  exact (le_scan (σ := (ofSource text .standard true).reset p)
    (Nat.le_min.2 ⟨Nat.le_refl p, h.isBoundary.le_bytes⟩)).1

end Scanner

namespace Estree

/-! ### Where a declaration starts -/

/-- What a law that is only about where nodes start asks of them: nothing. -/
def Unasked (_ : Registry) (_ : EsNode) : Prop := True

variable {file : SourceFile} {n m : Node} {p front : Nat}

/-- Nodes behind `p`, or names at `p`. -/
inductive Further (file : SourceFile) (p : Nat) (n : Node) : Prop where
  | later (h : p + 2 ≤ n.pos)
  | name (hk : n.kind = .token .identifier) (hstart : p ≤ file.startOf n) (hstop : p ≤ n.stop)

lemma Parsed.pos_le_startOf (h : Parsed file) (hn : n ∈ file.root.nodes) :
    n.pos ≤ file.startOf n := by
  unfold SourceFile.startOf
  split
  · exact Nat.le_refl _
  · exact Nat.le_min.2 ⟨Scanner.le_skip (h.sited n hn).pos, h.pos_le_stop n hn⟩

/-- A node behind `p` has its lists behind `p` as well. -/
lemma Parsed.list_pos (h : Parsed file) (hn : n ∈ file.root.nodes) (hp : p + 2 ≤ n.pos) {r : Role}
    {l : NodeList} (hl : n.list? r = some l) : p ≤ l.pos - 1 := by
  have := (h.shaped n hn).lists r l hl
  omega

/-- Nothing starts before `p`. -/
def frontLaw (file : SourceFile) (h : Parsed file) (p : Nat) (hp : p ≤ Text.bytes file.text) :
    Law file where
  first := p
  asks _ n := n ∈ file.root.nodes ∧ Further file p n
  inner n := n ∈ file.root.nodes ∧ p + 2 ≤ n.pos
  makes _ _ := True
  node := Unasked
  bare := Unasked
  first_le := hp
  node_inField _ _ := trivial
  bare_inField _ _ := trivial
  node_later _ _ _ := trivial
  bare_later _ _ _ := trivial
  made _ _ _ := ⟨trivial, trivial⟩
  children _ _ _ _ := trivial
  synthetic _ := trivial
  inner_asks hn := ⟨hn.1, .later hn.2⟩
  inner_binds hn _ := ⟨hn.1, .later hn.2⟩
  inner_part hn _ hm := ⟨Parsed.mem_part hn.1 hm,
    Nat.le_trans hn.2 ((h.shaped _ hn.1).within _ (Below.mem_of_partsOf hm))⟩
  inner_spotted {n} hn := by
    have hpos : p ≤ n.pos := Nat.le_trans (Nat.le_add_right p 2) hn.2
    exact ⟨hn.1, Nat.le_sub_of_add_le hn.2, Nat.le_trans hpos (h.pos_le_startOf hn.1),
      Nat.le_trans hpos (h.pos_le_stop n hn.1), fun r l _ hl => h.list_pos hn.1 hn.2 hl⟩
  inlined _ _ _ := trivial

section Front

variable (h : Parsed file) (hp : p ≤ Text.bytes file.text)

lemma frontLaw_loose : Loose (frontLaw file h p hp) := ⟨fun _ _ _ => ⟨trivial, trivial⟩,
  fun _ _ _ _ => trivial⟩

lemma frontLaw_rangeless : Rangeless (frontLaw file h p hp) := ⟨fun _ => trivial, fun _ => trivial⟩

lemma keepsList_eq (k : NodeKind) (r : Role) (hk : keepsList k r = true) :
    Grammar.holdsList k r = true := by
  unfold keepsList at hk
  split at hk <;> first | rfl | cases hk

/-- A node behind `p` is read as any other. -/
lemma frontLaw_plain (hn : n ∈ file.root.nodes) (hpos : p + 2 ≤ n.pos) :
    Plain (frontLaw file h p hp) n where
  mem := hn
  pos := Nat.le_trans (Nat.le_add_right p 2) hpos
  start := ((frontLaw file h p hp).inner_spotted ⟨hn, hpos⟩).start
  stop := ((frontLaw file h p hp).inner_spotted ⟨hn, hpos⟩).stop
  list r l _ hl := h.list_pos hn hpos hl
  opening r hr := by
    obtain ⟨l, hl⟩ := Option.isSome_iff_exists.1
      ((h.shaped n hn).held r (keepsList_eq n.kind r hr))
    have hle := h.list_pos hn hpos hl
    rwa [Convert.openingOf, hl]
  part m hm := ⟨Tree.mem_nodes_trans hn (Tree.mem_nodes_of_mem hm),
    Nat.le_trans hpos ((h.shaped n hn).within m hm)⟩
  makes _ _ := trivial

lemma frontLaw_body (hn : (frontLaw file h p hp).inner n) (hm : m ∈ n.partsOf .body) :
    (frontLaw file h p hp).inner m :=
  ⟨Parsed.mem_part hn.1 hm,
    Nat.le_trans hn.2 ((h.shaped _ hn.1).within _ (Below.mem_of_partsOf hm))⟩

theorem frontLaw_upheld : (frontLaw file h p hp).Upheld := by
  intro place depth n hasked hn
  obtain ⟨hn, hfurther⟩ := hn
  cases hfurther with
  | later hpos =>
    have hplain := frontLaw_plain h hp hn hpos
    refine Convert.byRule_gives (fun f hf hk => ?_) fun _ => hplain
    rcases List.mem_append.1 hf with hf | hf
    · rcases List.mem_append.1 hf with hf | hf
      · exact Convert.targetRule_gives hplain hk hf
          (fun m hm => ⟨(hplain.part m hm).1, .later (hplain.part m hm).2⟩) fun _ _ => trivial
      · exact Convert.linkRule_gives hplain (frontLaw_loose h hp) hk hf fun _ _ => trivial
    · exact Convert.exportRule_gives hplain (frontLaw_rangeless h hp) hk hf fun _ _ _ =>
        frontLaw_body h hp
  | name hk hstart hstop =>
    have hmakes (t : NodeType) : Makes (frontLaw file h p hp) (some n) t := trivial
    have hafter : After (frontLaw file h p hp) (file.startOf n) := hstart
    unfold Convert.byRule
    rw [hk]
    change Gives _ _ _ (Convert.identifier n)
    unfold Convert.identifier
    refine .given (hmakes .thisExpression) (.given (hmakes .identifier) (.given hafter ?_))
    exact .ofRead inferInstance

end Front

/-! ### Exported declarations -/

/-- The word `default`, if it comes next. -/
def defaultWord? : List (TokenKind × Node) → Option Node
  | (.defaultKw, word) :: _ => some word
  | _ => none

/-- The first of the words before the declaration is `export`, and `rest` are the others. -/
structure ExportedBy (n word : Node) (rest : List (TokenKind × Node)) : Prop where
  form : ∃ f ∈ exportForms, n.kind = .form f
  words : Convert.words n = (.exportKw, word) :: rest

def Exported (n : Node) : Prop := ∃ word rest, ExportedBy n word rest

def isExport (t : NodeType) : Bool := t == .exportNamedDeclaration || t == .exportDefaultDeclaration

/-- The export that the words ask for. -/
def exportType (rest : List (TokenKind × Node)) : NodeType :=
  if (defaultWord? rest).isSome then .exportDefaultDeclaration else .exportNamedDeclaration

/-- `m` is the export that was put around `c`, which was made of the declaration `n`. -/
structure Wraps (file : SourceFile) (r : Registry) (n word : Node) (rest : List (TokenKind × Node))
    (m c : EsNode) : Prop where
  native : r.nativeOf? m.id = some n.index
  type : m.type = exportType rest
  field : c.field = .declaration
  declared : ∃ f, n.kind = .form f ∧ isDeclaredAs f c.type = true
  /-- If all that stands before the declaration are words, the two start at the tokens after
  `export`, and after `default`. -/
  starts : Grammar.isDeclaration n.kind = true →
    (∀ m ∈ n.partsOf .modifier, ∃ k, m.kind = .token k) →
    m.range.start = Trivia.skip file.text word.stop ∧
      c.range.start = Trivia.skip file.text ((defaultWord? rest).getD word).stop

/-- What is known of a node whose children, or that itself, may be made of an exported
declaration. -/
structure ExportsAt (file : SourceFile) (r : Registry) (m : EsNode) : Prop where
  /-- The export does not answer for the declaration. -/
  own : ∀ n ∈ file.root.nodes, r.nativeOf? m.id = some n.index → Exported n →
    isExport m.type = true → ∃ i, r.convertedOf? n.index = some i ∧ i ≠ m.id
  /-- The declaration stands in its export. -/
  wrapped : ∀ c ∈ m.children, ∀ n ∈ file.root.nodes, r.nativeOf? c.id = some n.index →
    ∀ word rest, ExportedBy n word rest → isExport c.type = true ∨ Wraps file r n word rest m c

section Law

variable {r s : Registry} {word : Node} {rest : List (TokenKind × Node)} {c m : EsNode}

lemma exportType_cases (rest : List (TokenKind × Node)) :
    exportType rest = .exportNamedDeclaration ∨ exportType rest = .exportDefaultDeclaration := by
  unfold exportType
  split
  · exact .inr rfl
  · exact .inl rfl

lemma isExport_exportType (rest : List (TokenKind × Node)) : isExport (exportType rest) = true := by
  rcases exportType_cases rest with h | h <;> rw [h] <;> rfl

/-- What answers for a declaration is not changed. -/
lemma Parsed.not_mobile_of_declaration {f : Form} (h : Parsed file) (hn : n ∈ file.root.nodes)
    (hf : f ∈ exportForms) (hk : n.kind = .form f) : ¬ Mobile file n.index := by
  rintro ⟨m, hm, hindex, htaken⟩
  obtain rfl := h.eq_of_index hm hn hindex
  rcases htaken with ⟨g, hg, hk'⟩ | ⟨hk', -⟩
  · obtain rfl := NodeKind.form.inj (hk.symm.trans hk')
    revert hf hg
    cases f <;> decide
  · obtain rfl := NodeKind.form.inj (hk.symm.trans hk')
    revert hf
    decide

lemma Parsed.not_mobile_of_exported (h : Parsed file) (hn : n ∈ file.root.nodes)
    (he : Exported n) : ¬ Mobile file n.index := by
  obtain ⟨_, _, ⟨f, hf, hk⟩, -⟩ := he
  exact h.not_mobile_of_declaration hn hf hk

lemma ExportsAt.later (h : Parsed file) (hrs : r.Before file s)
    (hbelow : ∀ k ∈ m.nodes, k.id < r.size) (hm : ExportsAt file r m) : ExportsAt file s m := by
  have hroot := hrs.nativeOf? (hbelow m (Tree.mem_nodes_self m))
  refine ⟨fun n hn hnative he ht => ?_, fun c hc n hn hnative word rest he => ?_⟩
  · rw [hroot] at hnative
    obtain ⟨i, hi, hne⟩ := hm.own n hn hnative he ht
    exact ⟨i, hrs.answers _ _ (h.not_mobile_of_exported hn he) hi, hne⟩
  · rw [hrs.nativeOf? (hbelow c (Tree.mem_nodes_of_mem hc))] at hnative
    refine (hm.wrapped c hc n hn hnative word rest he).imp_right fun hwraps => ?_
    exact { hwraps with native := hroot.trans hwraps.native }

/-- What is made of no exported declaration, over nodes that may be handed on. -/
lemma ExportsAt.ofOther (hm : ∀ n ∈ file.root.nodes, r.nativeOf? m.id = some n.index → ¬ Exported n)
    (hcs : ∀ c ∈ m.children, ∀ n ∈ file.root.nodes, r.nativeOf? c.id = some n.index →
      Exported n → isExport c.type = true) : ExportsAt file r m :=
  ⟨fun n hn hnative he => absurd he (hm n hn hnative),
    fun c hc n hn hnative word rest he => .inl (hcs c hc n hn hnative ⟨word, rest, he⟩)⟩

/-- Only an export has a declaration in it that is not handed on. -/
lemma ExportsAt.exported (hm : ExportsAt file r m) (ht : isExport m.type = false) :
    ∀ c ∈ m.children, ∀ n ∈ file.root.nodes, r.nativeOf? c.id = some n.index → Exported n →
      isExport c.type = true := by
  rintro c hc n hn hnative ⟨word, rest, he⟩
  refine (hm.wrapped c hc n hn hnative word rest he).resolve_right fun hwraps => ?_
  rw [hwraps.type, isExport_exportType] at ht
  cases ht

end Law

/-- An exported declaration stands in its export, and nothing but the export is handed on. -/
def exportLaw (file : SourceFile) (h : Parsed file) : Law file where
  asks _ n := n ∈ file.root.nodes
  inner n := n ∈ file.root.nodes
  makes native _ := ∀ n ∈ file.root.nodes, native = some n.index → ¬ Exported n
  node := ExportsAt file
  bare r a := ∀ n ∈ file.root.nodes, r.nativeOf? a.id = some n.index → Exported n →
    isExport a.type = true
  first_le := Terms.zero_le file
  node_inField {r m} f hm := by
    obtain ⟨l, cs⟩ := m
    refine ⟨hm.own, fun c hc n hn hnative word rest he => ?_⟩
    refine (hm.wrapped c hc n hn hnative word rest he).imp_right fun hwraps => ?_
    exact { hwraps with }
  bare_inField {r m} f hm := by
    obtain ⟨l, cs⟩ := m
    exact hm
  node_later hrs hbelow hm := hm.later h hrs hbelow
  bare_later {r s m} hrs hbelow hm n hn := by
    rw [hrs.nativeOf? (hbelow m (Tree.mem_nodes_self m))]
    exact hm n hn
  made {r m} hmakes _ hcs := ⟨.ofOther hmakes fun c hc => (hcs c hc).bare,
    fun n hn hnative he => absurd he (hmakes n hn hnative)⟩
  children {r m} ht hm := by
    refine hm.exported ?_
    rcases ht with ht | ht
    · cases hexport : isExport m.type with
      | false => rfl
      | true =>
        rcases Bool.or_eq_true_iff.1 hexport with h | h <;> rw [beq_iff_eq.1 h] at ht <;> cases ht
    · rw [ht]
      rfl
  synthetic _ _ _ hindex := by cases hindex
  inner_asks hn := hn
  inner_binds hn _ := hn
  inner_part hn _ hm := Parsed.mem_part hn hm
  inner_spotted hn :=
    ⟨hn, Nat.zero_le _, Nat.zero_le _, Nat.zero_le _, fun _ _ _ _ => Nat.zero_le _⟩
  inlined {n t} hn hinlined _ m hm hindex he := by
    obtain rfl := h.eq_of_index hn hm (Option.some.inj hindex)
    obtain ⟨_, _, ⟨f, hf, hk⟩, -⟩ := he
    exact (h.inlined_form hinlined hk).2 hf

section Exports

variable (h : Parsed file)

lemma exportLaw_loose : Loose (exportLaw file h) where
  chain _ hmakes hcs := ⟨.ofOther hmakes fun c hc => (hcs c hc).bare,
    fun n hn hnative he => absurd he (hmakes n hn hnative)⟩
  inner ht hm := hm.exported (by rw [ht]; rfl)

lemma exportLaw_plain (hn : n ∈ file.root.nodes) (he : ¬ Exported n) :
    Plain (exportLaw file h) n where
  mem := hn
  pos := Nat.zero_le _
  start := Nat.zero_le _
  stop := Nat.zero_le _
  list _ _ _ _ := Nat.zero_le _
  opening _ _ := Nat.zero_le _
  part m hm := Tree.mem_nodes_trans hn (Tree.mem_nodes_of_mem hm)
  makes t _ m hm hindex := by
    obtain rfl := h.eq_of_index hn hm (Option.some.inj hindex)
    exact he

lemma exportLaw_drawn (hn : n ∈ file.root.nodes) : Drawn (exportLaw file h) n where
  mem := hn
  name _ hm := Parsed.mem_part hn hm
  part _ _ _ hm := Parsed.mem_part hn hm
  decorators _ hm _ := Parsed.mem_part hn hm
  elements _ hl _ hm := Parsed.mem_part (Parsed.mem_part hn hl) hm
  nested _ := Convert.nested_of_closed (fun _ _ => Parsed.mem_part)
    (fun _ hm => Parsed.mem_part hn hm) _
  list _ _ _ _ := Nat.zero_le _
  opening _ _ := Nat.zero_le _

/-- A declaration with words before it only is drawn from what stands behind its first word. -/
lemma frontLaw_drawn (hn : n ∈ file.root.nodes) (hp : p ≤ Text.bytes file.text)
    (hfront : Grammar.Fronted file.text front n) (hle : p ≤ front)
    (hwords : ∀ m ∈ n.partsOf .modifier, ∃ k, m.kind = .token k) :
    Drawn (frontLaw file h p hp) n := by
  have hpart {m : Node} {r : Role} (hm : m ∈ n.partsOf r) : m ∈ n.children ∧ m.role = r :=
    ⟨(List.mem_filter.1 hm).1, beq_iff_eq.1 (List.mem_filter.1 hm).2⟩
  have hlist {r : Role} {l : NodeList} (hr : r ≠ .modifier) (hl : n.list? r = some l) :
      p ≤ l.pos - 1 := by
    have := hfront.lists r l hr hl
    omega
  have hquiet (r : Role) (hr : r ∉ [.name, .modifier, .declarationList]) :
      Quiet (frontLaw file h p hp) n r := fun m hm => by
    obtain ⟨hchild, hrole⟩ := hpart hm
    refine ⟨Parsed.mem_part hn hm, ?_⟩
    cases hfront.parts m hchild (by rw [hrole]; rintro rfl; simp at hr) with
    | later hpos => omega
    | list hr' _ => simp [← hrole, hr'] at hr
    | word hr' _ _ _ => simp [← hrole, hr'] at hr
  refine ⟨hn, fun m hm => ⟨Parsed.mem_part hn hm, ?_⟩, hquiet, fun m hm hd => ?_,
    fun l hl m hm => ⟨Parsed.mem_part (Parsed.mem_part hn hl) hm, ?_⟩,
    fun _ => Convert.nested_of_closed (fun _ _ => frontLaw_body h hp) (hquiet .body (by decide)) _,
    fun r l hr hl => hlist hr hl, fun r hr => ?_⟩
  · obtain ⟨hchild, hrole⟩ := hpart hm
    cases hfront.parts m hchild (by simp [hrole]) with
    | later hpos => exact .later (by omega)
    | list hr _ => simp [hrole] at hr
    | word _ hk hskip hstop =>
      refine .name hk ?_ (Nat.le_trans hle hstop)
      have htext : m.isToken .jsxText = false := by simp [Tree.isToken, hk]
      unfold SourceFile.startOf
      rw [htext, Bool.false_or]
      split
      · next heq => exact beq_iff_eq.1 heq ▸ Nat.le_trans hle hstop
      · exact Nat.le_min.2 ⟨Nat.le_trans hle hskip, Nat.le_trans hle hstop⟩
  · obtain ⟨k, hk⟩ := hwords m hm
    simp [Tree.isForm, hk] at hd
  · obtain ⟨hchild, hrole⟩ := hpart hl
    cases hfront.parts l hchild (by simp [hrole]) with
    | later hpos =>
      have := (h.shaped l (Parsed.mem_part hn hl)).within m (Below.mem_of_partsOf hm)
      omega
    | list _ helements =>
      have := helements m hm
      omega
    | word hr _ _ _ => simp [hrole] at hr
  · obtain ⟨l, hl⟩ := Option.isSome_iff_exists.1
      ((h.shaped n hn).held r (keepsList_eq n.kind r hr))
    have hne : r ≠ .modifier := by
      rintro rfl
      unfold keepsList at hr
      split at hr <;> simp_all
    have := hlist hne hl
    rwa [Convert.openingOf, hl]

end Exports

namespace Convert

lemma widenOver_start_le (w : Span) (cs : List EsNode) : (Tree.widenOver w cs).start ≤ w.start := by
  have hcontains := (Tree.contains_widenOver w cs).1
  exact ((Span.contains_iff _ _).1 hcontains).1

variable {env : Env} {n word : Node} {f : Form} {rest : List (TokenKind × Node)} {r s : Registry}
  {e a : EsNode}

/-- Where the token behind a word starts. -/
def behindWord (file : SourceFile) (word : Node) : Nat :=
  (Scanner.tokenAt file.text file.variant word.stop).2.1

/-- **What comes of an export**: the declaration starts anew, and the export is put around it. -/
lemma wrapExport_run (he : words n = (.exportKw, word) :: rest)
    (hrun : wrapExport n e env r = .ok (a, s)) :
    ∃ inner w ps,
      restart e (behindWord env.file ((defaultWord? rest).getD word)) env r = .ok (inner, r) ∧
      w.start = behindWord env.file word ∧ ps.flatMap Part.nodes = [inner.inField .declaration] ∧
      make (some n) w (exportType rest) ps env r = .ok (a, s) := by
  unfold wrapExport at hrun
  rw [he] at hrun
  obtain ⟨after, r₁, hafter, hrun⟩ := run_bind_eq_ok hrun
  obtain ⟨kind, after⟩ := after
  have hstart : after.start = behindWord env.file word := by
    cases hafter
    rfl
  obtain rfl : r = r₁ := by
    cases hafter
    rfl
  dsimp -zeta only at hrun
  extract_lets default? rest' at hrun
  have hdefault : default? = defaultWord? rest := rfl
  clear_value default?
  subst hdefault
  have hrest {p : Nat} (hrun : rest' p env r = .ok (a, s)) :
      ∃ inner w ps, restart e p env r = .ok (inner, r) ∧ w.start = behindWord env.file word ∧
        ps.flatMap Part.nodes = [inner.inField .declaration] ∧
        make (some n) w (exportType rest) ps env r = .ok (a, s) := by
    obtain ⟨inner, r₂, hrestart, hmake⟩ := run_bind_eq_ok hrun
    obtain ⟨rfl, -⟩ := restart_run hrestart
    unfold exportType
    split at hmake
    · next hword =>
      rw [if_pos hword]
      refine ⟨inner, _, _, hrestart, ?_, ?_, hmake⟩
      · exact hstart
      · rfl
    · next hword =>
      rw [if_neg hword]
      refine ⟨inner, _, _, hrestart, ?_, ?_, hmake⟩
      · exact hstart
      · rfl
  clear_value rest'
  cases hword : defaultWord? rest with
  | none =>
    rw [hword, hstart] at hrun
    exact hrest hrun
  | some word' =>
    rw [hword] at hrun
    obtain ⟨token, r₂, htoken, hrun⟩ := run_bind_eq_ok hrun
    cases htoken
    exact hrest hrun

/-- Nothing in the declaration starts before it, so it starts where it starts anew. -/
lemma start_of_restart {p : Nat} (hcs : ∀ c ∈ e.children, p ≤ c.range.start)
    (hrun : restart e p env r = .ok (a, s)) : a.range.start = p := by
  obtain ⟨-, w, loc, rfl, rfl⟩ := restart_run hrun
  obtain ⟨l, cs⟩ := e
  exact Nat.le_antisymm (widenOver_start_le _ cs) (widenOver_start (Nat.le_refl p) hcs)

/-- The words before a declaration stand in turn. -/
lemma words_ordered {text : Source} {front : Nat}
    (h : Grammar.InTurn text front (n.partsOf .modifier)) :
    (words n).Pairwise fun x y => Trivia.skip text x.2.stop ≤ Trivia.skip text y.2.stop := by
  refine List.pairwise_filterMap.2 (h.ordered.imp fun hab x hx y hy => ?_)
  obtain ⟨k, -, rfl⟩ := Option.map_eq_some_iff.1 hx
  obtain ⟨k', -, rfl⟩ := Option.map_eq_some_iff.1 hy
  exact hab

/-- The last of the words that the export is made of. -/
lemma lastWord_mem (he : words n = (.exportKw, word) :: rest) :
    (defaultWord? rest).getD word ∈ n.partsOf .modifier := by
  have hmem {k : TokenKind} {m : Node} (hm : (k, m) ∈ (.exportKw, word) :: rest) :
      m ∈ n.partsOf .modifier := (mem_modifier_of_words (he ▸ hm)).1
  unfold defaultWord?
  split
  · exact hmem (List.mem_cons_of_mem _ List.mem_cons_self)
  · exact hmem List.mem_cons_self

lemma word_le_lastWord {text : Source} {front : Nat} (he : words n = (.exportKw, word) :: rest)
    (h : Grammar.InTurn text front (n.partsOf .modifier)) :
    Trivia.skip text word.stop ≤ Trivia.skip text ((defaultWord? rest).getD word).stop := by
  have hordered := words_ordered h
  rw [he] at hordered
  unfold defaultWord?
  split
  · exact List.rel_of_pairwise_cons hordered List.mem_cons_self
  · exact Nat.le_refl _

lemma restart_same {p : Nat} (hrun : restart e p env r = .ok (a, s)) :
    a.id = e.id ∧ a.type = e.type ∧ a.children = e.children ∧ a.label.slots = e.label.slots := by
  obtain ⟨-, w, loc, -, rfl⟩ := restart_run hrun
  obtain ⟨l, cs⟩ := e
  exact ⟨rfl, rfl, rfl, rfl⟩

lemma make_run {w : Span} {t : NodeType} {ps : List Part}
    (hrun : make (some n) w t ps env r = .ok (a, s)) : s = (r.next (some n.index)).2 ∧
      a.id = r.size ∧ a.type = t ∧ a.children = ps.flatMap Part.nodes ∧
      a.range = Tree.widenOver w a.children := by
  cases hrun
  exact ⟨rfl, rfl, rfl, rfl, rfl⟩

lemma behindWord_eq (h : Parsed env.file) (hn : n ∈ env.file.root.nodes)
    (hm : word ∈ n.partsOf .modifier) :
    behindWord env.file word = Trivia.skip env.file.text word.stop :=
  Scanner.tokenAt_start _ (h.sited word (Parsed.mem_part hn hm)).stop

/-- Where an export and the declaration in it start, if all that stands before are words. -/
lemma starts_of_run (h : Parsed env.file) {s' : Registry} {inner : EsNode} {w : Span} {d : Draft f}
    (hasked : ∀ p hp, Asked env (frontLaw env.file h p hp)) (hn : n ∈ env.file.root.nodes)
    (hk : n.kind = .form f) {p : Convert (Draft f)} (hp : draft? n f = some p)
    (he : words n = (.exportKw, word) :: rest) (hd : Grammar.isDeclaration n.kind = true)
    (hwords : ∀ m ∈ n.partsOf .modifier, ∃ k, m.kind = .token k) (hkept : r.Kept env.file)
    (hdraft : p env r = .ok (d, s)) (hcs : e.children = d.parts.flatMap Part.nodes)
    (hrestart : restart e (behindWord env.file ((defaultWord? rest).getD word)) env s' =
      .ok (inner, s'))
    (hw : w.start = behindWord env.file word) :
    (Tree.widenOver w [inner.inField .declaration]).start = Trivia.skip env.file.text word.stop ∧
      inner.range.start = Trivia.skip env.file.text ((defaultWord? rest).getD word).stop := by
  have hlast := lastWord_mem he
  have hword : word ∈ n.partsOf .modifier :=
    (mem_modifier_of_words (he ▸ List.mem_cons_self : (TokenKind.exportKw, word) ∈ words n)).1
  obtain ⟨front, hfront⟩ := (h.shaped n hn).fronted hd ⟨List.ne_nil_of_mem hword, hwords⟩
  have hle := hfront.words.le_front _ hlast
  have hbytes : Trivia.skip env.file.text ((defaultWord? rest).getD word).stop ≤
      Text.bytes env.file.text :=
    (Scanner.isCut_skip (h.sited _ (Parsed.mem_part hn hlast)).stop).isBoundary.le_bytes
  rw [behindWord_eq h hn hlast] at hrestart
  rw [behindWord_eq h hn hword] at hw
  have := hasked _ hbytes
  have hdrawn := frontLaw_drawn h hn hbytes hfront hle hwords
  have hgives : Gives env (frontLaw env.file h _ hbytes) .none p :=
    .given hdrawn (draft_gives hk hp)
  have hmoves := hgives.moves trivial hkept hdraft
  have hstart :
      inner.range.start = Trivia.skip env.file.text ((defaultWord? rest).getD word).stop :=
    start_of_restart (fun c hc => (hmoves.good.2 c (hcs ▸ hc)).root.start) hrestart
  refine ⟨Nat.le_antisymm (hw ▸ widenOver_start_le w _) (widenOver_start hw.ge fun c hc => ?_),
    hstart⟩
  rw [List.mem_singleton.1 hc, Tree.range_inField, hstart]
  exact word_le_lastWord he hfront.words

lemma of_declaredAs {t : NodeType} (h : isDeclaredAs f t = true) :
    isExport t = false ∧ t ≠ .chainExpression ∧ t ≠ .sequenceExpression ∧ isEdited t = false := by
  unfold isDeclaredAs at h
  split at h <;> first | cases h; done | decide

/-- The number that answers for a node is the first that was taken for it, not the last. -/
lemma answers_before (h : Parsed env.file) (hn : n ∈ env.file.root.nodes) (he : Exported n)
    (hkept : r.Kept env.file) : ∃ i,
      ((r.next (some n.index)).2.next (some n.index)).2.convertedOf? n.index = some i ∧
        i ≠ (r.next (some n.index)).2.size := by
  obtain ⟨i, hi⟩ : ∃ i, (r.next (some n.index)).2.convertedOf? n.index = some i := by
    rw [Registry.convertedOf?_next]
    cases hbefore : r.convertedOf? n.index with
    | none => exact ⟨r.size, by simp⟩
    | some i => exact ⟨i, by simp⟩
  have hmobile := h.not_mobile_of_exported hn he
  have hnative := ((hkept.next (some n.index)).comes _ _ hi).resolve_right hmobile
  exact ⟨i, (Registry.Before.next (some n.index)).answers _ _ hmobile hi,
    Nat.ne_of_lt (Registry.lt_size_of_nativeOf? hnative)⟩

/-- **An exported declaration stands in its export.** -/
theorem exported_gives (h : Parsed env.file) [Asked env (exportLaw env.file h)]
    (hasked : ∀ p hp, Asked env (frontLaw env.file h p hp)) (hn : n ∈ env.file.root.nodes)
    (hk : n.kind = .form f) (hf : f ∈ exportForms) (he : ExportedBy n word rest) :
    Gives env (exportLaw env.file h) .none (ruleFor n f) where
  moves {r s a} _ hkept hrun := by
    obtain ⟨p, hp⟩ := exists_draft n hf
    rw [ruleFor_eq_draft hp] at hrun
    obtain ⟨d, r₁, hdraft, hrun⟩ := run_bind_eq_ok hrun
    obtain ⟨e, r₂, hfinish, hwrap⟩ := run_bind_eq_ok hrun
    obtain ⟨rfl, hid, htype, hcs, -⟩ := finish_run hfinish
    obtain ⟨inner, w, ps, hrestart, hw, hps, hmake⟩ := wrapExport_run he.words hwrap
    have hgives : Gives env (exportLaw env.file h) .none p :=
      .given (exportLaw_drawn h hn) (draft_gives hk hp)
    obtain ⟨hbefore, hkept₁, hdeclared, hparts⟩ := hgives.moves trivial hkept hdraft
    obtain ⟨hid', htype', hcs', -⟩ := restart_same hrestart
    obtain ⟨rfl, haid, hatype, hacs, harange⟩ := make_run hmake
    rw [hps] at hacs
    rw [← hid'] at hid
    rw [← htype'] at htype
    rw [← hcs'] at hcs
    obtain ⟨hexport, hchain, hsequence, hedited⟩ := of_declaredAs (htype ▸ hdeclared)
    have hstep₁ := @Registry.Before.next env.file r₁ (some n.index)
    have hstep₂ := @Registry.Before.next env.file (r₁.next (some n.index)).2 (some n.index)
    have hnative : ((r₁.next (some n.index)).2.next (some n.index)).2.nativeOf? a.id =
        some n.index := by rw [Registry.nativeOf?_next, if_pos haid]
    have hnative₁ : (r₁.next (some n.index)).2.nativeOf? inner.id = some n.index := by
      rw [Registry.nativeOf?_next, if_pos hid]
    have hnative' : ((r₁.next (some n.index)).2.next (some n.index)).2.nativeOf? inner.id =
        some n.index := (hstep₂.nativeOf? (Registry.lt_size_of_nativeOf? hnative₁)).trans hnative₁
    have hgood (c : EsNode) (hc : c ∈ inner.children) : (exportLaw env.file h).Good
        ((r₁.next (some n.index)).2.next (some n.index)).2 c :=
      ((hparts c (hcs ▸ hc)).later hstep₁).later hstep₂
    have hnoted : ∀ m ∈ inner.nodes, Noted (exportLaw env.file h).toTerms
        ((r₁.next (some n.index)).2.next (some n.index)).2 m := by
      refine Tree.forall_mem_nodes.2 ⟨?_, fun c hc => (hgood c hc).noted⟩
      refine ⟨Registry.lt_size_of_nativeOf? hnative', Nat.zero_le _, fun ht => absurd ht hchain,
        fun ht => absurd ht hsequence, fun ht => absurd (ht.symm.trans hedited) (by simp), ?_⟩
      refine ⟨fun m hm hindex hm' ht => absurd (ht.symm.trans hexport) (by simp),
        fun c hc m hm hindex word rest hm' => .inl ?_⟩
      exact (hgood c hc).bare m hm hindex ⟨word, rest, hm'⟩
    obtain ⟨hfieldId, hfieldType⟩ : (inner.inField .declaration).id = inner.id ∧
        (inner.inField .declaration).type = inner.type := by
      cases inner
      exact ⟨rfl, rfl⟩
    have hwraps : Wraps env.file ((r₁.next (some n.index)).2.next (some n.index)).2 n word rest a
        (inner.inField .declaration) := by
      refine ⟨hnative, hatype, field_inField inner, ⟨f, hk, ?_⟩, fun hd hwords => ?_⟩
      · rw [hfieldType, htype]
        exact hdeclared
      · have hstarts := starts_of_run h hasked hn hk hp he.words hd hwords hkept hdraft (hcs' ▸ hcs)
          hrestart hw
        rw [harange, hacs, Tree.range_inField]
        exact hstarts
    have hbare : (exportLaw env.file h).bare ((r₁.next (some n.index)).2.next (some n.index)).2 a :=
      fun _ _ _ _ => hatype ▸ isExport_exportType rest
    have hat : ExportsAt env.file ((r₁.next (some n.index)).2.next (some n.index)).2 a := by
      refine ⟨fun m hm hindex _ _ => ?_, fun c hc m hm hindex word' rest' he' => .inr ?_⟩
      · obtain rfl := h.eq_of_index hm hn (Option.some.inj (hindex.symm.trans hnative))
        rw [haid]
        exact answers_before h hn ⟨word, rest, he⟩ hkept₁
      · obtain rfl := List.mem_singleton.1 (hacs ▸ hc)
        rw [hfieldId] at hindex
        obtain rfl := h.eq_of_index hm hn (Option.some.inj (hindex.symm.trans hnative'))
        obtain ⟨hword, rfl⟩ := List.cons.inj (he.words.symm.trans he'.words)
        obtain ⟨-, rfl⟩ := Prod.mk.inj hword
        exact hwraps
    refine ⟨(hbefore.trans hstep₁).trans hstep₂, (hkept₁.next _).next _, ?_⟩
    refine .ofNode (Registry.lt_size_of_nativeOf? hnative) (Nat.zero_le _) ?_ ?_ ?_ ⟨hat, hbare⟩ ?_
    · intro ht
      rcases exportType_cases rest with h | h <;> simp [hatype, h] at ht
    · intro ht
      rcases exportType_cases rest with h | h <;> simp [hatype, h] at ht
    · intro ht
      rcases exportType_cases rest with h | h <;> simp [hatype, h, isEdited, isBindingType] at ht
    · intro c hc
      rw [hacs, List.mem_singleton] at hc
      exact hc ▸ Noted.inField hnoted .declaration

lemma wrapExport_eq_pure (hk : n.kind = .form f) (hf : f ∈ exportForms) (he : ¬ Exported n) :
    wrapExport n = pure := by
  funext e
  unfold wrapExport
  split
  · next word rest hwords => exact absurd ⟨word, rest, ⟨f, hf, hk⟩, hwords⟩ he
  · rfl

/-- A declaration without an export is handed on as it is. -/
lemma bare_gives (h : Parsed env.file) [Asked env (exportLaw env.file h)]
    (hn : n ∈ env.file.root.nodes) (hk : n.kind = .form f) (hf : f ∈ exportForms)
    (he : ¬ Exported n) : Gives env (exportLaw env.file h) .none (ruleFor n f) := by
  obtain ⟨p, hp⟩ := exists_draft n hf
  have hplain := exportLaw_plain h hn he
  rw [ruleFor_eq_draft hp, declared_eq, wrapExport_eq_pure hk hf he]
  simp only [bind_pure]
  have hstart : After (exportLaw env.file h) (env.file.startOf n) := Nat.zero_le _
  refine .given (exportLaw_drawn h hn) (.given hstart (.bind (draft_gives hk hp) fun d => ?_))
  refine finish_draft_gives fun t ht => ?_
  exact hplain.makes t (isPlain_of_declaredAs ht)

end Convert

variable {file : SourceFile} {n : Node}

theorem exportLaw_upheld (h : Parsed file) : (exportLaw file h).Upheld := by
  intro place depth n hasked hn
  have hfront (p : Nat) (hp : p ≤ Text.bytes file.text) :
      Asked { file, place, recur := Convert.node file depth } (frontLaw file h p hp) :=
    Convert.asked_node h.sited (frontLaw_upheld h hp) depth place
  by_cases he : Exported n
  · obtain ⟨word, rest, he⟩ := he
    refine Convert.byRule_gives (fun f hf hk => ?_) fun hno => ?_
    · obtain ⟨g, hg, hk'⟩ := he.form
      obtain rfl := NodeKind.form.inj (hk.symm.trans hk')
      exact Convert.exported_gives h hfront hn hk hg he
    · obtain ⟨f, hf, hk⟩ := he.form
      exact absurd hk (hno f (List.mem_append_right _ hf))
  · have hplain := exportLaw_plain h hn he
    have hmakes (t : NodeType) : (exportLaw file h).makes (some n.index) t := by
      intro m hm hindex
      obtain rfl := h.eq_of_index hn hm (Option.some.inj hindex)
      exact he
    refine Convert.byRule_gives (fun f hf hk => ?_) fun _ => hplain
    rcases List.mem_append.1 hf with hf | hf
    · rcases List.mem_append.1 hf with hf | hf
      · exact Convert.targetRule_gives hplain hk hf hplain.part fun _ _ => hmakes _
      · exact Convert.linkRule_gives hplain (exportLaw_loose h) hk hf fun t _ => hmakes t
    · exact Convert.bare_gives h hn hk hf he

/-! ### Exports in a converted tree -/

/-- What becomes of exported declarations. -/
structure ExportsFit (file : SourceFile) (c : Conversion) : Prop where
  /-- What answers for an exported declaration stands in an export, which does not answer for it. -/
  answers : ∀ n ∈ file.root.nodes, Grammar.isDeclaration n.kind = true → ∀ word rest,
    Convert.words n = (.exportKw, word) :: rest → ∀ i, c.registry.convertedOf? n.index = some i →
      ∃ wrapper ∈ c.program.nodes, ∃ inner ∈ wrapper.children, inner.id = i ∧ wrapper.id ≠ i ∧
        Wraps file c.registry n word rest wrapper inner

lemma exportedBy_of_declaration {word : Node} {rest : List (TokenKind × Node)}
    (hd : Grammar.isDeclaration n.kind = true)
    (hwords : Convert.words n = (.exportKw, word) :: rest) :
    ExportedBy n word rest := by
  refine ⟨?_, hwords⟩
  unfold Grammar.isDeclaration at hd
  split at hd
  all_goals first
    | cases hd; done
    | next hk => exact ⟨_, by decide, hk⟩

lemma exportsFit_ofFile {name : String} {text : Source} {c : Conversion}
    (h : Conversion.ofFile (SourceFile.parse name text) = .ok c) :
    ExportsFit (SourceFile.parse name text) c := by
  have hparsed := parsed_parse name text
  have hroot : ¬ Exported (SourceFile.parse name text).root := by
    rintro ⟨word, rest, ⟨f, hf, hk⟩, -⟩
    obtain rfl := NodeKind.form.inj
      ((show (SourceFile.parse name text).root.kind = .form .sourceFile from rfl).symm.trans hk)
    revert hf
    decide
  have hmoves := ofFile_moves hparsed.sited (exportLaw_upheld hparsed)
    (exportLaw_plain hparsed (Tree.mem_nodes_self _) hroot) h
  refine ⟨fun n hn hd word rest hwords i hi => ?_⟩
  have he := exportedBy_of_declaration hd hwords
  have hexported : Exported n := ⟨word, rest, he⟩
  have hnative : c.registry.nativeOf? i = some n.index :=
    (hmoves.kept.comes _ _ hi).resolve_right (hparsed.not_mobile_of_exported hn hexported)
  obtain ⟨inner, hinner, rfl⟩ := (fitsTree_ofFile h).answers n.index i hi
  have hbare : isExport inner.type = false := by
    cases ht : isExport inner.type with
    | false => rfl
    | true =>
      obtain ⟨i, hi', hne⟩ := (hmoves.good.noted inner hinner).node.own n hn hnative hexported ht
      exact absurd (Option.some.inj (hi.symm.trans hi')).symm hne
  rw [Tree.nodes_eq, List.mem_cons] at hinner
  rcases hinner with rfl | hinner
  · rw [hmoves.good.bare n hn hnative hexported] at hbare
    cases hbare
  · obtain ⟨wrapper, hwrapper, hchild⟩ := Tree.exists_parent hinner
    have hat := (hmoves.good.noted wrapper hwrapper).node
    rcases hat.wrapped inner hchild n hn hnative word rest he with hexport | hwraps
    · rw [hexport] at hbare
      cases hbare
    · refine ⟨wrapper, hwrapper, inner, hchild, rfl, ?_, hwraps⟩
      obtain ⟨i, hi', hne⟩ := hat.own n hn hwraps.native hexported
        (hwraps.type ▸ isExport_exportType rest)
      rw [Option.some.inj (hi.symm.trans hi')]
      exact hne.symm

/-- **An exported declaration is converted to an export with the declaration in it**, and the
declaration answers for it. -/
theorem exports_fit (name : String) (text : Source) (c : Conversion)
    (h : Conversion.ofFile (SourceFile.parse name text) = .ok c) :
    ExportsFit (SourceFile.parse name text) c := exportsFit_ofFile h

/-- Exports with and without other words, and a default. -/
def exportedDeclarations : Source :=
  ("export /* a */ const a = 1; export declare class B \x7b\x7d " ++
    "export default function f() \x7b\x7d").toList

set_option maxRecDepth 10000 in
theorem exportedDeclarations_fit :
    ∃ c, Conversion.ofFile (SourceFile.parse "a.ts" exportedDeclarations) = .ok c ∧
      ExportsFit (SourceFile.parse "a.ts" exportedDeclarations) c ∧
      ∃ n ∈ (SourceFile.parse "a.ts" exportedDeclarations).root.nodes,
        (Convert.words n).map Prod.fst = [.exportKw, .defaultKw] ∧
        ∃ wrapper ∈ c.program.nodes, wrapper.type = .exportDefaultDeclaration ∧
          ∃ inner ∈ wrapper.children, c.registry.convertedOf? n.index = some inner.id := by
  have hok : (Conversion.ofFile (SourceFile.parse "a.ts" exportedDeclarations)).toOption.any
      (fun c => decide (∃ n ∈ (SourceFile.parse "a.ts" exportedDeclarations).root.nodes,
        Grammar.isDeclaration n.kind = true ∧
        (Convert.words n).map Prod.fst = [.exportKw, .defaultKw] ∧
        (c.registry.convertedOf? n.index).isSome = true)) = true := by
    decide +kernel
  obtain ⟨c, h, hcase⟩ := Conversion.exists_of_any hok
  obtain ⟨n, hn, hdeclaration, hkinds, hconverted⟩ := of_decide_eq_true hcase
  obtain ⟨i, hi⟩ := Option.isSome_iff_exists.1 hconverted
  obtain ⟨⟨_, word⟩, rest, hwords, rfl, hrest⟩ := List.map_eq_cons_iff.1 hkinds
  obtain ⟨⟨_, next⟩, rest, rfl, rfl, -⟩ := List.map_eq_cons_iff.1 hrest
  have hfits := exports_fit _ _ c h
  obtain ⟨wrapper, hwrapper, inner, hinner, rfl, -, hwraps⟩ :=
    hfits.answers n hn hdeclaration word _ hwords i hi
  exact ⟨c, h, hfits, n, hn, hkinds, wrapper, hwrapper, hwraps.type, inner, hinner, hi⟩

/-- An export is lost: `text` parses without an error and converts, a declaration in it has the
words `modifiers` before it, and no node of the tree is of a type that they ask for. -/
def LosesExport (text : Source) (modifiers : List TokenKind) (types : NodeType → Bool) : Prop :=
  (SourceFile.parse "a.ts" text).errors = [] ∧
    (∃ n ∈ (SourceFile.parse "a.ts" text).root.nodes, Grammar.isDeclaration n.kind = true ∧
      ∀ k ∈ modifiers, k ∈ (Convert.words n).map Prod.fst) ∧
    ∃ c, Conversion.ofFile (SourceFile.parse "a.ts" text) = .ok c ∧
      ∀ m ∈ c.program.nodes, types m.type = false

lemma LosesExport.intro {text : Source} {modifiers : List TokenKind} {types : NodeType → Bool}
    (herrors : (SourceFile.parse "a.ts" text).errors = [])
    (hnode : ∃ n ∈ (SourceFile.parse "a.ts" text).root.nodes, Grammar.isDeclaration n.kind = true ∧
      ∀ k ∈ modifiers, k ∈ (Convert.words n).map Prod.fst)
    (hok : (Conversion.ofFile (SourceFile.parse "a.ts" text)).toOption.any
      (fun c => c.program.nodes.all fun m => !types m.type) = true) :
    LosesExport text modifiers types := by
  obtain ⟨c, h, hall⟩ := Conversion.exists_of_any hok
  exact ⟨herrors, hnode, c, h, fun m hm => by simpa using List.all_eq_true.1 hall m hm⟩

/-- `export` behind another word. -/
def lateExport : Source := "declare export const a = 1;".toList

/-- `export` in a decorator that is dropped. -/
def droppedExport : Source := "@(() => \x7b export const a = 1; \x7d) function f() \x7b\x7d".toList

/-- `default` behind a word that is not `export`. -/
def lateDefault : Source := "export declare default class A \x7b\x7d".toList

set_option maxRecDepth 10000 in
/-- There is no export in the tree where another word stands before `export`, or where the
declaration is not converted at all; and no default export where another word stands before
`default`. -/
theorem exports_lost :
    LosesExport lateExport [.exportKw] isExport ∧
      LosesExport droppedExport [.exportKw] isExport ∧
      LosesExport lateDefault [.exportKw, .defaultKw] (· == .exportDefaultDeclaration) :=
  ⟨.intro (by decide +kernel) (by decide +kernel) (by decide +kernel),
    .intro (by decide +kernel) (by decide +kernel) (by decide +kernel),
    .intro (by decide +kernel) (by decide +kernel) (by decide +kernel)⟩

end Estree

end EstreeLint
