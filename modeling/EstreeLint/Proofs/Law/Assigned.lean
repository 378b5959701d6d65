import EstreeLint.Proofs.Law.Dispatch

/-!
What is assigned to.

The same literals stand for values and for patterns that are assigned to, and only their place tells
which. The rules hand down whether they convert a target; here the place is told by the syntax tree,
and the two are shown to be the same.
-/

namespace EstreeLint.Estree

/-- The node is assigned to, or stands in a pattern that is. What is on the left of `=` in a pattern
is on the left of an assignment. -/
inductive Targeted (file : SourceFile) : Node → Prop where
  | assigned {n m : Node} {k : TokenKind} (hn : n ∈ file.root.nodes)
      (hk : n.kind = .form .binaryExpression) (hop : operator? n = some k)
      (hassign : k.isAssignment = true) (hm : m ∈ n.partsOf .left) : Targeted file m
  | looped {n m : Node} (hn : n ∈ file.root.nodes)
      (hk : n.kind = .form .forInStatement ∨ n.kind = .form .forOfStatement)
      (hm : m ∈ n.partsOf .initializer) : Targeted file m
  | element {n m : Node} (hn : Targeted file n)
      (hk : n.kind = .form .arrayLiteralExpression ∨ n.kind = .form .objectLiteralExpression)
      (hm : m ∈ n.partsOf .element) : Targeted file m
  | value {n m : Node} (hn : Targeted file n) (hk : n.kind = .form .propertyAssignment)
      (hm : m ∈ n.partsOf .value) : Targeted file m
  | rest {n m : Node} (hn : Targeted file n)
      (hk : n.kind = .form .spreadElement ∨ n.kind = .form .spreadAssignment)
      (hm : m ∈ n.partsOf .expression) : Targeted file m

/-- What the node becomes as a target, and what it becomes as an expression. -/
def targetTypes? (n : Node) : Option (NodeType × NodeType) :=
  match n.kind with
  | .form .arrayLiteralExpression => some (.arrayPattern, .arrayExpression)
  | .form .objectLiteralExpression => some (.objectPattern, .objectExpression)
  | .form .spreadElement | .form .spreadAssignment => some (.restElement, .spreadElement)
  | .form .binaryExpression =>
    if operator? n == some .equals then some (.assignmentPattern, .assignmentExpression) else none
  | _ => none

/-- The type is the one that the place of the node asks for. -/
def Suited (file : SourceFile) (n : Node) (t : NodeType) : Prop :=
  ∀ x, targetTypes? n = some x → Targeted file n ∧ t = x.1 ∨ ¬ Targeted file n ∧ t = x.2

/-- Kinds of node that are converted otherwise as a target. -/
@[reducible] def isScoped : NodeKind → Bool
  | .form .arrayLiteralExpression | .form .objectLiteralExpression | .form .propertyAssignment
  | .form .spreadElement | .form .spreadAssignment | .form .binaryExpression => true
  | _ => false

variable {file : SourceFile} {n m : Node} {r : Role} {k : TokenKind} {t : NodeType}

lemma suited_of_none (h : targetTypes? n = none) : Suited file n t := fun x hx => by
  rw [h] at hx
  cases hx

lemma targetTypes?_of_not_scoped (h : isScoped n.kind = false) : targetTypes? n = none := by
  unfold targetTypes?
  split <;> simp_all

namespace Targeted

lemma mem (h : Targeted file m) : m ∈ file.root.nodes := by
  have hpart {n m : Node} {r : Role} (hn : n ∈ file.root.nodes) (hm : m ∈ n.partsOf r) :
      m ∈ file.root.nodes :=
    Tree.mem_nodes_trans hn (Tree.mem_nodes_of_mem (Below.mem_of_partsOf hm))
  induction h with
  | assigned hn _ _ _ hm => exact hpart hn hm
  | looped hn _ hm => exact hpart hn hm
  | element _ _ hm ih => exact hpart ih hm
  | value _ _ hm ih => exact hpart ih hm
  | rest _ _ hm ih => exact hpart ih hm

/-- The parts of a node that are assigned to. -/
def Hands (file : SourceFile) (n : Node) (r : Role) : Prop :=
  match n.kind, r with
  | .form .binaryExpression, .left => ∃ k, operator? n = some k ∧ k.isAssignment = true
  | .form .forInStatement, .initializer | .form .forOfStatement, .initializer => True
  | .form .arrayLiteralExpression, .element | .form .objectLiteralExpression, .element
  | .form .propertyAssignment, .value
  | .form .spreadElement, .expression | .form .spreadAssignment, .expression => Targeted file n
  | _, _ => False

/-- Whether a part is a target is for its parent to say. -/
lemma iff_hands (hids : (file.root.nodes.map Tree.index).Nodup) (hn : n ∈ file.root.nodes)
    (hm : m ∈ n.partsOf r) : Targeted file m ↔ Hands file n r := by
  have hsame {n' : Node} {r' : Role} (hn' : n' ∈ file.root.nodes) (hm' : m ∈ n'.partsOf r') :
      n' = n ∧ r' = r := by
    obtain ⟨hchild, hrole⟩ := List.mem_filter.1 hm
    obtain ⟨hchild', hrole'⟩ := List.mem_filter.1 hm'
    exact ⟨Tree.parent_unique (.of_map _ hids) hn' hn hchild' hchild,
      (beq_iff_eq.1 hrole').symm.trans (beq_iff_eq.1 hrole)⟩
  constructor
  · intro h
    cases h with
    | assigned hn' hk hop hassign hm' =>
      obtain ⟨rfl, rfl⟩ := hsame hn' hm'
      simp only [Hands, hk]
      exact ⟨_, hop, hassign⟩
    | looped hn' hk hm' =>
      obtain ⟨rfl, rfl⟩ := hsame hn' hm'
      rcases hk with hk | hk <;> simp [Hands, hk]
    | element hn' hk hm' =>
      obtain ⟨rfl, rfl⟩ := hsame hn'.mem hm'
      rcases hk with hk | hk <;> simpa only [Hands, hk]
    | value hn' hk hm' =>
      obtain ⟨rfl, rfl⟩ := hsame hn'.mem hm'
      simpa only [Hands, hk]
    | rest hn' hk hm' =>
      obtain ⟨rfl, rfl⟩ := hsame hn'.mem hm'
      rcases hk with hk | hk <;> simpa only [Hands, hk]
  · intro h
    unfold Hands at h
    split at h
    · next hk =>
      obtain ⟨k, hop, hassign⟩ := h
      exact .assigned hn hk hop hassign hm
    · next hk => exact .looped hn (.inl hk) hm
    · next hk => exact .looped hn (.inr hk) hm
    · next hk => exact .element h (.inl hk) hm
    · next hk => exact .element h (.inr hk) hm
    · next hk => exact .value h hk hm
    · next hk => exact .rest h (.inl hk) hm
    · next hk => exact .rest h (.inr hk) hm
    · exact h.elim

end Targeted

/-! ### The law -/

/-- What the rule for a node above makes something of is not converted otherwise as a target. -/
lemma Parsed.inlined_not_scoped (h : Parsed file) (hn : Inlined file n) :
    isScoped n.kind = false := by
  cases hk : n.kind with
  | token k => rfl
  | form f =>
    have hf := (h.inlined_form hn hk).1
    revert hf
    cases f <;> decide

/-- A node is converted as a target just where it is assigned to. -/
def targetLaw (file : SourceFile) (h : Parsed file) : Law file where
  asks isTarget n := n ∈ file.root.nodes ∧
    (isScoped n.kind = true → (isTarget = true ↔ Targeted file n))
  inner n := n ∈ file.root.nodes ∧ (isScoped n.kind = true → ¬ Targeted file n)
  makes native t := ∀ n ∈ file.root.nodes, native = some n.index → Suited file n t
  node r m := ∀ n ∈ file.root.nodes, r.nativeOf? m.id = some n.index → Suited file n m.type
  bare _ _ := True
  first_le := Terms.zero_le file
  node_inField := by
    rintro r ⟨l, cs⟩ f h
    exact h
  bare_inField _ h := h
  node_later hrs hbelow h n hn := by
    rw [hrs.nativeOf? (hbelow _ (Tree.mem_nodes_self _))]
    exact h n hn
  bare_later _ _ h := h
  made hmakes _ _ := ⟨hmakes, trivial⟩
  children _ _ _ _ := trivial
  synthetic _ _ _ := nofun
  inner_asks h := ⟨h.1, fun hs => ⟨nofun, fun ht => absurd ht (h.2 hs)⟩⟩
  inner_binds {n} h hbinds := ⟨h.1, fun hs => by
    rcases hbinds with hk | hk | hk <;> rw [hk] at hs <;> cases hs⟩
  inner_part {n r m} hn hquiet hm := by
    refine ⟨Tree.mem_nodes_trans hn.1 (Tree.mem_nodes_of_mem (Below.mem_of_partsOf hm)),
      fun _ => ?_⟩
    rw [Targeted.iff_hands h.ids hn.1 hm]
    intro hhands
    unfold Targeted.Hands at hhands
    split at hhands
    case h_9 => exact hhands
    case h_1 | h_2 | h_3 => simp_all
    all_goals
      next hk => exact hn.2 (by rw [hk]) hhands
  inner_spotted hn :=
    ⟨hn.1, Nat.zero_le _, Nat.zero_le _, Nat.zero_le _, fun _ _ _ _ => Nat.zero_le _⟩
  inlined {n t} hn hinlined _ m hm hindex := by
    obtain rfl := h.eq_of_index hn.1 hm (Option.some.inj hindex)
    exact suited_of_none (targetTypes?_of_not_scoped (h.inlined_not_scoped hinlined))

variable (h : Parsed file)

lemma targetLaw_loose : Loose (targetLaw file h) where
  chain _ hmakes _ := ⟨hmakes, trivial⟩
  inner _ _ _ _ := trivial

lemma targetLaw_rangeless : Rangeless (targetLaw file h) where
  node {r m w loc} hm := by
    obtain ⟨l, cs⟩ := m
    exact hm
  bare _ := trivial

include h

/-- A node none of whose parts is assigned to, and that is no target for it matters. -/
lemma targetLaw_plain (hn : n ∈ file.root.nodes) (htypes : targetTypes? n = none)
    (hparts : ∀ r, ¬ Targeted.Hands file n r) : Plain (targetLaw file h) n where
  mem := hn
  pos := Nat.zero_le _
  start := Nat.zero_le _
  stop := Nat.zero_le _
  list _ _ _ _ := Nat.zero_le _
  opening _ _ := Nat.zero_le _
  part m hm := ⟨Tree.mem_nodes_trans hn (Tree.mem_nodes_of_mem hm), fun _ ht =>
    hparts m.role ((Targeted.iff_hands h.ids hn (List.mem_filter.2 ⟨hm, by simp⟩)).1 ht)⟩
  makes t _ m hm hindex := by
    obtain rfl := h.eq_of_index hn hm (Option.some.inj hindex)
    exact suited_of_none htypes

lemma targetLaw_plain_of_form {f : Form} (hn : n ∈ file.root.nodes) (hk : n.kind = .form f)
    (hf : f ∉ targetForms) : Plain (targetLaw file h) n := by
  refine targetLaw_plain h hn (targetTypes?_of_not_scoped ?_) fun r hhands => ?_
  · rw [hk]
    revert hf
    cases f <;> decide
  · unfold Targeted.Hands at hhands
    split at hhands
    case h_9 => exact hhands
    all_goals
      next hk' =>
        obtain rfl := NodeKind.form.inj (hk.symm.trans hk')
        exact hf (by decide)

/-! ### Forms with parts that may be targets -/

omit h in
lemma suited_of_place {isTarget : Bool} {pattern expression : NodeType}
    (hplace : isTarget = true ↔ Targeted file n)
    (htypes : targetTypes? n = some (pattern, expression)) :
    Suited file n (if isTarget then pattern else expression) := fun x hx => by
  obtain rfl := Option.some.inj (htypes.symm.trans hx)
  cases isTarget with
  | true => exact .inl ⟨hplace.1 rfl, rfl⟩
  | false => exact .inr ⟨fun ht => (nomatch hplace.2 ht), rfl⟩

end EstreeLint.Estree

namespace EstreeLint.Estree.Convert

variable {env : Env} {Γ : Facts env.file} {n : Node} {f : Form}

/-- **The rules hand down what is a target as the syntax tree tells it.** -/
theorem targetForm_gives (h : Parsed env.file) [Asked env (targetLaw env.file h)]
    (hn : n ∈ env.file.root.nodes)
    (hplace : isScoped n.kind = true → (env.place.isTarget = true ↔ Targeted env.file n))
    (hk : n.kind = .form f) (hf : f ∈ targetForms) :
    Gives env (targetLaw env.file h) Γ (ruleFor n f) := by
  have hpart {r : Role} {m : Node} (hm : m ∈ n.partsOf r) : m ∈ env.file.root.nodes :=
    Parsed.mem_part hn hm
  have hquiet {r : Role} (hr : ¬ Targeted.Hands env.file n r) :
      Quiet (targetLaw env.file h) n r := fun m hm =>
    ⟨hpart hm, fun _ ht => hr ((Targeted.iff_hands h.ids hn hm).1 ht)⟩
  have hhanded {r : Role} {isTarget : Bool} (hr : isTarget = true ↔ Targeted.Hands env.file n r) :
      ∀ m ∈ n.partsOf r, (targetLaw env.file h).asks isTarget m := fun m hm =>
    ⟨hpart hm, fun _ => hr.trans (Targeted.iff_hands h.ids hn hm).symm⟩
  have hmakes {t : NodeType} (ht : Suited env.file n t) : Makes (targetLaw env.file h) (some n) t :=
    fun m hm hindex => h.eq_of_index hn hm (Option.some.inj hindex) ▸ ht
  have hstart : After (targetLaw env.file h) (env.file.startOf n) := Nat.zero_le _
  simp only [targetForms, List.mem_cons, List.not_mem_nil, or_false] at hf
  rcases hf with rfl | rfl | rfl | rfl | rfl | rfl | rfl | rfl | rfl
  · have hplace := hplace (by rw [hk])
    exact arrayLiteral_gives hstart (hhanded (by simpa only [Targeted.Hands, hk]))
      (hmakes (suited_of_place hplace (by simp [targetTypes?, hk])))
  · have hplace := hplace (by rw [hk])
    exact objectLiteral_gives hstart (hhanded (by simpa only [Targeted.Hands, hk]))
      (hmakes (suited_of_place hplace (by simp [targetTypes?, hk])))
  · have hplace := hplace (by rw [hk])
    exact propertyAssignment_gives hstart (hquiet (by simp [Targeted.Hands, hk]))
      (hhanded (by simpa only [Targeted.Hands, hk]))
      (hmakes (suited_of_none (by simp [targetTypes?, hk])))
  · refine shorthandProperty_gives hstart (fun m hm => ?_) (hquiet (by simp [Targeted.Hands, hk]))
      (hmakes (suited_of_none (by simp [targetTypes?, hk])))
    have hname : isScoped m.kind = false := by
      have hmet := (h.shaped n hn).parts .name m hm
      rw [hk] at hmet
      obtain ⟨k, hm⟩ := hmet
      rw [hm]
    exact ⟨⟨hpart hm, fun hs => by simp [hname] at hs⟩, hpart hm, fun hs => by simp [hname] at hs⟩
  · have hplace := hplace (by rw [hk])
    exact spread_gives hstart (hhanded (by simpa only [Targeted.Hands, hk]))
      (hmakes (suited_of_place hplace (by simp [targetTypes?, hk])))
  · have hplace := hplace (by rw [hk])
    exact spread_gives hstart (hhanded (by simpa only [Targeted.Hands, hk]))
      (hmakes (suited_of_place hplace (by simp [targetTypes?, hk])))
  · have hplace := hplace (by rw [hk])
    refine binaryExpression_gives (fun k hop hassign => ?_) (fun hop => ?_) hstart
      (hquiet (by simp [Targeted.Hands, hk])) (fun k hop hassign => ?_) (fun k hop hassign => ?_) hk
    · refine targetLaw_plain h hn ?_ fun r hhands => ?_
      · have hne : operator? n ≠ some .equals := fun he => by
          obtain rfl := Option.some.inj (hop.symm.trans he)
          cases hassign
        simp [targetTypes?, hk, hne]
      · unfold Targeted.Hands at hhands
        split at hhands <;> simp_all
    · exact hmakes (suited_of_none (by simp [targetTypes?, hk, hop]))
    · exact hhanded (by simpa [Targeted.Hands, hk] using ⟨k, hop, hassign⟩)
    · cases hequals : k == .equals with
      | true =>
        obtain rfl := beq_iff_eq.1 hequals
        rw [Bool.and_true]
        exact hmakes (suited_of_place hplace (by simp [targetTypes?, hk, hop]))
      | false =>
        refine hmakes (suited_of_none ?_)
        simp [targetTypes?, hk, hop, hequals]
  · exact forEachStatement_gives hstart (hhanded (by simp [Targeted.Hands, hk]))
      (hquiet (by simp [Targeted.Hands, hk])) (hquiet (by simp [Targeted.Hands, hk]))
      fun t _ => hmakes (suited_of_none (by simp [targetTypes?, hk]))
  · exact forEachStatement_gives hstart (hhanded (by simp [Targeted.Hands, hk]))
      (hquiet (by simp [Targeted.Hands, hk])) (hquiet (by simp [Targeted.Hands, hk]))
      fun t _ => hmakes (suited_of_none (by simp [targetTypes?, hk]))

end EstreeLint.Estree.Convert

namespace EstreeLint.Estree

variable {file : SourceFile} {n m : Node}

theorem targetLaw_upheld (h : Parsed file) : (targetLaw file h).Upheld := by
  rintro place depth n hasked ⟨hn, hplace⟩
  have hplain {f : Form} (hk : n.kind = .form f) (hf : f ∉ targetForms) :
      Plain (targetLaw file h) n := targetLaw_plain_of_form h hn hk hf
  refine Convert.byRule_gives (fun f hf hk => ?_) fun hspecial => ?_
  · rcases List.mem_append.1 hf with hf | hf
    · rcases List.mem_append.1 hf with hf | hf
      · exact Convert.targetForm_gives h hn hplace hk hf
      · have hnot : f ∉ targetForms := by
          revert hf
          cases f <;> decide
        refine Convert.linkRule_gives (hplain hk hnot) (targetLaw_loose h) hk hf fun t _ => ?_
        intro m hm hindex
        obtain rfl := h.eq_of_index hn hm (Option.some.inj hindex)
        refine suited_of_none (targetTypes?_of_not_scoped ?_)
        rw [hk]
        revert hf
        cases f <;> decide
    · have hnot : f ∉ targetForms := by
        revert hf
        cases f <;> decide
      refine Convert.exportRule_gives (hplain hk hnot) (targetLaw_rangeless h) hk hf
        fun _ k m hk hm => ?_
      refine ⟨Parsed.mem_part hk.1 hm, fun _ => ?_⟩
      rw [Targeted.iff_hands h.ids hk.1 hm]
      unfold Targeted.Hands
      split <;> simp_all
  · cases hk : n.kind with
    | token k =>
      refine targetLaw_plain h hn (by simp [targetTypes?, hk]) fun r hhands => ?_
      simp [Targeted.Hands, hk] at hhands
    | form f =>
      refine hplain hk fun hf => hspecial f ?_ hk
      exact List.mem_append_left _ (List.mem_append_left _ hf)

/-! ### Patterns in a converted tree -/

/-- What becomes of nodes that may be targets. -/
structure PatternsFit (file : SourceFile) (c : Conversion) : Prop where
  /-- What answers for a node is a pattern just if the node is assigned to. -/
  answers : ∀ n ∈ file.root.nodes, ∀ pattern expression,
    targetTypes? n = some (pattern, expression) → ∀ i, c.registry.convertedOf? n.index = some i →
      ∃ m ∈ c.program.nodes, m.id = i ∧
        (Targeted file n ∧ m.type = pattern ∨ ¬ Targeted file n ∧ m.type = expression)
  /-- So is all that was made of it. -/
  makes : ∀ n ∈ file.root.nodes, ∀ pattern expression,
    targetTypes? n = some (pattern, expression) → ∀ m ∈ c.program.nodes,
      c.registry.nativeOf? m.id = some n.index →
        Targeted file n ∧ m.type = pattern ∨ ¬ Targeted file n ∧ m.type = expression

lemma not_mobile (h : Parsed file) (hn : n ∈ file.root.nodes) (htypes : targetTypes? n ≠ none) :
    ¬ Mobile file n.index := by
  rintro ⟨m, hm, hindex, htaken⟩
  obtain rfl := h.eq_of_index hm hn hindex
  apply htypes
  rcases htaken with ⟨f, hf, hk⟩ | ⟨hk, hop⟩
  · simp only [linkForms, List.mem_cons, List.not_mem_nil, or_false] at hf
    rcases hf with rfl | rfl | rfl | rfl <;> simp [targetTypes?, hk]
  · simp [targetTypes?, hk, hop]

/-- **Literals, spreads and assignments become patterns just where they are assigned to.** -/
theorem patterns_fit (name : String) (text : Source) (c : Conversion)
    (h : Conversion.ofFile (SourceFile.parse name text) = .ok c) :
    PatternsFit (SourceFile.parse name text) c := by
  have hparsed := parsed_parse name text
  have hroot := targetLaw_plain_of_form hparsed (Tree.mem_nodes_self _)
    (show (SourceFile.parse name text).root.kind = .form .sourceFile from rfl) (by decide)
  have hmoves := ofFile_moves (sitedIn_parse name text) (targetLaw_upheld hparsed)
    hroot h
  have hmakes : ∀ n ∈ (SourceFile.parse name text).root.nodes, ∀ m ∈ c.program.nodes,
      c.registry.nativeOf? m.id = some n.index → Suited (SourceFile.parse name text) n m.type :=
    fun n hn m hm => (hmoves.good.noted m hm).node n hn
  refine ⟨fun n hn pattern expression htypes i hi => ?_,
    fun n hn pattern expression htypes m hm hnative => hmakes n hn m hm hnative _ htypes⟩
  obtain ⟨m, hm, rfl⟩ := (fitsTree_ofFile h).answers n.index i hi
  refine ⟨m, hm, rfl, hmakes n hn m hm ?_ _ htypes⟩
  exact (hmoves.kept.comes _ _ hi).resolve_right (not_mobile hparsed hn (by simp [htypes]))

/-- Patterns in patterns, and literals that only look like them. -/
def patternsAndValues : Source :=
  ("[a, ...[b = [1]], c[[1]]] = [...d]; " ++
    "for (\x7bx: [y], [[z]]: w, ...v\x7d of \x7b...u\x7d) [t].s = r").toList

set_option maxRecDepth 10000 in
theorem patternsAndValues_fit :
    ∃ c, Conversion.ofFile (SourceFile.parse "a.ts" patternsAndValues) = .ok c ∧
      PatternsFit (SourceFile.parse "a.ts" patternsAndValues) c ∧
      (∃ n ∈ (SourceFile.parse "a.ts" patternsAndValues).root.nodes,
        Targeted (SourceFile.parse "a.ts" patternsAndValues) n ∧
        ∃ m ∈ c.program.nodes, c.registry.convertedOf? n.index = some m.id ∧
          m.type = .arrayPattern) ∧
      ∃ n ∈ (SourceFile.parse "a.ts" patternsAndValues).root.nodes,
        ¬ Targeted (SourceFile.parse "a.ts" patternsAndValues) n ∧
        ∃ m ∈ c.program.nodes, c.registry.convertedOf? n.index = some m.id ∧
          m.type = .arrayExpression := by
  have hok : (Conversion.ofFile (SourceFile.parse "a.ts" patternsAndValues)).toOption.any
      (fun c => decide (
        (∃ p ∈ (SourceFile.parse "a.ts" patternsAndValues).root.nodes,
          p.kind = .form .binaryExpression ∧ operator? p = some .equals ∧
          ∃ n ∈ p.partsOf .left, n.kind = .form .arrayLiteralExpression ∧
            (c.registry.convertedOf? n.index).isSome = true) ∧
        ∃ n ∈ (SourceFile.parse "a.ts" patternsAndValues).root.nodes,
          n.kind = .form .arrayLiteralExpression ∧
          ∃ m ∈ c.program.nodes, c.registry.convertedOf? n.index = some m.id ∧
            m.type = .arrayExpression)) = true := by
    decide +kernel
  obtain ⟨c, h, hcase⟩ := Conversion.exists_of_any hok
  obtain ⟨⟨p, hp, hk, hop, n, hn, hkind, hconverted⟩, n', hn', hkind', m', hm', hi', ht'⟩ :=
    of_decide_eq_true hcase
  have hfits := patterns_fit _ _ c h
  have htypes {n : Node} (hk : n.kind = .form .arrayLiteralExpression) :
      targetTypes? n = some (.arrayPattern, .arrayExpression) := by
    simp only [targetTypes?, hk]
  have htarget : Targeted (SourceFile.parse "a.ts" patternsAndValues) n :=
    .assigned hp hk hop rfl hn
  obtain ⟨i, hi⟩ := Option.isSome_iff_exists.1 hconverted
  refine ⟨c, h, hfits, ⟨n, htarget.mem, htarget, ?_⟩,
    n', hn', fun htarget' => ?_, m', hm', hi', ht'⟩
  · obtain ⟨m, hm, rfl, ⟨-, ht⟩ | ⟨hnot, -⟩⟩ := hfits.answers n htarget.mem _ _ (htypes hkind) i hi
    · exact ⟨m, hm, hi, ht⟩
    · exact absurd htarget hnot
  · obtain ⟨m, hm, hid, ⟨-, ht⟩ | ⟨hnot, -⟩⟩ := hfits.answers n' hn' _ _ (htypes hkind') m'.id hi'
    · obtain rfl := List.inj_on_of_nodup_map (fitsTree_ofFile h).distinct hm hm' hid
      cases ht.symm.trans ht'
    · exact hnot htarget'

/-- A literal that is assigned to, in a decorator that is dropped. -/
def droppedPattern : Source := "@(([a] = b)) function f() \x7b\x7d".toList

set_option maxRecDepth 10000 in
/-- There is no pattern in the tree if the literal is not converted at all, though the text is read
without an error and the literal is the left operand of an assignment. -/
theorem pattern_lost :
    (SourceFile.parse "a.ts" droppedPattern).errors = [] ∧
      (∃ n ∈ (SourceFile.parse "a.ts" droppedPattern).root.nodes,
        n.kind = .form .arrayLiteralExpression ∧
        Targeted (SourceFile.parse "a.ts" droppedPattern) n) ∧
      ∃ c, Conversion.ofFile (SourceFile.parse "a.ts" droppedPattern) = .ok c ∧
        ∀ m ∈ c.program.nodes, m.type ≠ .arrayPattern := by
  have hnode : ∃ p ∈ (SourceFile.parse "a.ts" droppedPattern).root.nodes,
      p.kind = .form .binaryExpression ∧ operator? p = some .equals ∧
      ∃ n ∈ p.partsOf .left, n.kind = .form .arrayLiteralExpression := by
    decide +kernel
  have hok : (Conversion.ofFile (SourceFile.parse "a.ts" droppedPattern)).toOption.any (fun c =>
      c.program.nodes.all fun m => decide (m.type ≠ .arrayPattern)) = true := by
    decide +kernel
  obtain ⟨p, hp, hk, hop, n, hn, hkind⟩ := hnode
  have htarget : Targeted (SourceFile.parse "a.ts" droppedPattern) n :=
    .assigned hp hk hop rfl hn
  obtain ⟨c, h, hall⟩ := Conversion.exists_of_any hok
  exact ⟨by decide +kernel, ⟨n, htarget.mem, hkind, htarget⟩, c, h,
    fun m hm => of_decide_eq_true (List.all_eq_true.1 hall m hm)⟩

end EstreeLint.Estree
