import EstreeLint.Proofs.Once.Declarations

/-!
All rules read their parts once, and so a converted file numbers every node of its tree as often as
the rule for it does.
-/

namespace EstreeLint.Estree

open Registry (Grew)

namespace Convert

variable {env : Env} {x cap : Nat} {n : Node} {f : Form} {own : Nat} {roles : List Role}

/-- Nodes that are numbered once only: commas, and namespaces without an export around them. -/
def NumberedOnce (n : Node) : Prop :=
  IsComma n ∨ n.kind = .form .moduleDeclaration ∧ ∀ word rest, words n ≠ (.exportKw, word) :: rest

/-- The step takes the number no more than is due to the node. -/
structure KeepsDue (env : Env) (x cap : Nat) (n : Node) (p : Convert EsNode) : Prop where
  grew {r s : Registry} {a : EsNode} : r.Sound env.file → p env r = .ok (a, s) →
    Grew env.file x (cap * due x n) r s

section Rules

variable [hcounted : Counted env x cap] (hn : n ∈ env.file.root.nodes)
  (hcap : n.index = x → 2 ≤ cap)

include hn

omit hcounted in
lemma keepsDue_of_cost {p : Convert EsNode} (h : Adds env x cap n p own roles)
    (hown : n.index = x → own ≤ cap)
    (hroles : (if n.index = x then 1 else 0) + cost x n roles ≤ due x n) :
    KeepsDue env x cap n p := by
  refine ⟨fun hr hrun => (h.grew hn hr hrun).mono ?_⟩
  have hdue := Nat.mul_le_mul_left cap hroles
  rw [Nat.mul_add] at hdue
  split at hdue
  · next hx =>
    have := hown hx
    simp only [if_pos hx]
    omega
  · next hx =>
    simp only [if_neg hx]
    omega

omit hcounted in
/-- A rule that reads no part twice. -/
lemma keepsDue_of_adds {p : Convert EsNode} (h : Adds env x cap n p own roles)
    (hown : n.index = x → own ≤ cap) (hparameter : n.isForm .parameter = false)
    (hclause : n.isForm .importClause = false) (hr : roles.Nodup) : KeepsDue env x cap n p := by
  refine keepsDue_of_cost hn h hown ?_
  simpa [due, hparameter, hclause] using cost_le hr

include hcap

omit hcounted in
lemma keepsDue {p : Convert EsNode} (hk : n.kind = .form f) (h : Adds env x cap n p own roles)
    (hf : f ≠ .parameter ∧ f ≠ .importClause) (ho : own ≤ 2) (hr : roles.Nodup) :
    KeepsDue env x cap n p := by
  refine keepsDue_of_adds hn h (fun hx => Nat.le_trans ho (hcap hx)) ?_ ?_ hr
  · simp [Tree.isForm, hk, hf.1]
  · simp [Tree.isForm, hk, hf.2]

lemma parameter_keepsDue (hk : n.kind = .form .parameter) :
    KeepsDue env x cap n (parameter n) := by
  refine keepsDue_of_cost hn inferInstance hcap ?_
  have hform : n.isForm .parameter = true := by simp [Tree.isForm, hk]
  simp only [due, if_pos hform]
  exact Nat.add_le_add_left (cost_le_filter (by decide) (· != .modifier) (by decide)) _

lemma importDefault_keepsDue (hk : n.kind = .form .importClause) :
    KeepsDue env x cap n (importDefault n) := by
  refine keepsDue_of_cost hn inferInstance (fun hx => Nat.le_of_succ_le (hcap hx)) ?_
  have hparameter : n.isForm .parameter = false := by simp [Tree.isForm, hk]
  have hclause : n.isForm .importClause = true := by simp [Tree.isForm, hk]
  simp [due, hparameter, hclause, cost]

section Binders

variable (hplace : ∃ p ∈ env.file.root.nodes, n ∈ p.children ∧ env.place.parent = some p.kind)

include hplace

lemma specifier_keepsDue {p : Convert EsNode} (hk : n.kind = .form f)
    (hf : f ∈ [Form.importSpecifier, .exportSpecifier])
    (hp : Grammar.isBinder n.kind = true → Grammar.OwnKey n →
      Adds env x cap n p 1 [.propertyName, .name]) :
    KeepsDue env x cap n p := by
  obtain ⟨above, habove, hchild, -⟩ := hplace
  obtain ⟨hbinder, hne⟩ : Grammar.isBinder n.kind = true ∧ f ≠ .bindingElement := by
    rw [hk]
    simp only [List.mem_cons, List.not_mem_nil, or_false] at hf
    rcases hf with rfl | rfl <;> decide
  have hkey := (hcounted.countable.parsed.shaped above habove).ownKeys n hchild
    fun _ he => hne (NodeKind.form.inj (hk.symm.trans he))
  refine keepsDue hn hcap hk (hp hbinder hkey) ?_ (by decide) (by decide)
  simp only [List.mem_cons, List.not_mem_nil, or_false] at hf
  rcases hf with rfl | rfl <;> decide

/-- Only in an array the name of a binding may be a pattern, and there it is read once. -/
lemma bindingElement_keepsDue (hk : n.kind = .form .bindingElement) :
    KeepsDue env x cap n (bindingElement n) := by
  obtain ⟨above, habove, hchild, hparent⟩ := hplace
  by_cases harray : above.kind = .form .arrayBindingPattern
  · have hadds : Adds env x cap n (bindingElement n) 1 [.name, .initializer] := by
      have hsame : (env.place.parent == some (.form .arrayBindingPattern)) = true := by
        rw [hparent, harray]
        decide
      refine ⟨fun hn hr hrun => ?_⟩
      change (if env.place.parent == some (.form .arrayBindingPattern) then arrayBinding n
        else objectBinding n) env _ = _ at hrun
      rw [if_pos hsame] at hrun
      exact Adds.grew hn hr hrun
    exact keepsDue hn hcap hk hadds (by decide) (by decide) (by decide)
  · have hadds : Adds env x cap n (bindingElement n) 1 [.propertyName, .name, .initializer] := by
      have hother : ¬ (env.place.parent == some (.form .arrayBindingPattern)) = true := by
        rw [hparent, beq_iff_eq, Option.some.injEq]
        exact harray
      have hkey := (hcounted.countable.parsed.shaped above habove).ownKeys n hchild
        (absurd · harray)
      refine ⟨fun hn hr hrun => ?_⟩
      change (if env.place.parent == some (.form .arrayBindingPattern) then arrayBinding n
        else objectBinding n) env _ = _ at hrun
      rw [if_neg hother] at hrun
      exact (objectBinding_adds hn (by rw [hk]) hkey).grew hn hr hrun
    exact keepsDue hn hcap hk hadds (by decide) (by decide) (by decide)

end Binders

section Forms

variable (hplace : ∃ p ∈ env.file.root.nodes, n ∈ p.children ∧ env.place.parent = some p.kind)
  (hk : n.kind = .form f)

include hplace hk

lemma expressionForm_keepsDue (p : Convert EsNode) (h : expressionForm n f = some p) :
    KeepsDue env x cap n p := by
  unfold expressionForm at h
  split at h <;> cases h
  all_goals first
    | exact keepsDue hn hcap hk inferInstance (by decide) (by decide) (by decide)
    | exact keepsDue hn hcap hk (shorthandProperty_adds hn hk) (by decide) (by decide) (by decide)
    | exact keepsDue hn hcap hk (binaryExpression_adds hk) (by decide) (by decide) (by decide)
    | exact bindingElement_keepsDue hn hcap hplace hk
    | exact parameter_keepsDue hn hcap hk

omit hplace in
lemma statementForm_keepsDue (p : Convert EsNode) (h : statementForm n f = some p) :
    KeepsDue env x cap n p := by
  unfold statementForm at h
  split at h <;> cases h
  all_goals exact keepsDue hn hcap hk inferInstance (by decide) (by decide) (by decide)

lemma declarationForm_keepsDue (p : Convert EsNode) (h : declarationForm n f = some p) :
    KeepsDue env x cap n p := by
  by_cases hspecifier : f ∈ [Form.importSpecifier, .exportSpecifier]
  · have hkeeps := @specifier_keepsDue _ _ _ _ _ _ hn hcap hplace p hk hspecifier
    simp only [List.mem_cons, List.not_mem_nil, or_false] at hspecifier
    rcases hspecifier with rfl | rfl
    · cases h
      exact hkeeps (importSpecifier_adds hn)
    · cases h
      exact hkeeps (exportSpecifier_adds hn)
  · unfold declarationForm at h
    split at h <;> cases h
    all_goals first
      | exact absurd (by decide) hspecifier
      | exact keepsDue hn hcap hk inferInstance (by decide) (by decide) (by decide)
      | exact keepsDue hn hcap hk (importDeclaration_adds hn hk) (by decide) (by decide) (by decide)
      | exact importDefault_keepsDue hn hcap hk

omit hplace in
lemma typeForm_keepsDue (p : Convert EsNode) (h : typeForm n f = some p) :
    KeepsDue env x cap n p := by
  unfold typeForm at h
  split at h <;> cases h
  all_goals exact keepsDue hn hcap hk inferInstance (by decide) (by decide) (by decide)

omit hplace in
lemma elementForm_keepsDue (p : Convert EsNode) (h : elementForm n f = some p) :
    KeepsDue env x cap n p := by
  unfold elementForm at h
  split at h <;> cases h
  all_goals exact keepsDue hn hcap hk inferInstance (by decide) (by decide) (by decide)

omit hn hcap hplace hk hcounted in
lemma keepsDue_orElse {o o' : Option (Convert EsNode)}
    (h : ∀ p, o = some p → KeepsDue env x cap n p)
    (h' : ∀ p, o' = some p → KeepsDue env x cap n p) :
    ∀ p, (o <|> o') = some p → KeepsDue env x cap n p := by
  cases o with
  | some q => exact h
  | none => exact h'

lemma ruleFor_keepsDue : KeepsDue env x cap n (ruleFor n f) := by
  unfold ruleFor
  cases h : expressionForm n f <|> statementForm n f <|> declarationForm n f <|> typeForm n f <|>
      elementForm n f with
  | some p =>
    refine keepsDue_orElse (expressionForm_keepsDue hn hcap hplace hk)
      (keepsDue_orElse (statementForm_keepsDue hn hcap hk) ?_) p h
    exact keepsDue_orElse (declarationForm_keepsDue hn hcap hplace hk)
      (keepsDue_orElse (typeForm_keepsDue hn hcap hk) (elementForm_keepsDue hn hcap hk))
  | none => exact ⟨fun _ hrun => nomatch hrun⟩

end Forms

omit hcap in
lemma once_keepsDue (h : NumberedOnce n) : KeepsDue env x cap n (byRule n) := by
  rcases h with hcomma | ⟨hk, hwords⟩
  · rw [byRule_of_comma hcomma]
    refine keepsDue_of_adds hn (sequence_adds hcomma) (fun _ => hcounted.one_le) ?_ ?_ (by decide)
    all_goals simp [Tree.isForm, hcomma.kind]
  · have hwrap (e : EsNode) : Adds env x cap n (wrapExport n e) 0 [] := by
      unfold wrapExport
      split
      · next word rest heq => exact absurd heq (hwords word rest)
      · infer_instance
    rw [byRule, hk]
    change KeepsDue env x cap n (moduleDeclaration n)
    refine keepsDue_of_adds hn (moduleDeclaration_adds hwrap) (fun _ => hcounted.one_le) ?_ ?_
      (by decide)
    all_goals simp [Tree.isForm, hk]

omit hcap in
/-- **The rule for a node** takes a number no more than is due to the node, if it may take that of
the node itself twice, or never does. -/
theorem byRule_keepsDue
    (hplace : ∃ p ∈ env.file.root.nodes, n ∈ p.children ∧ env.place.parent = some p.kind)
    (hcap : n.index = x → 2 ≤ cap ∨ NumberedOnce n) : KeepsDue env x cap n (byRule n) := by
  by_cases honce : NumberedOnce n
  · exact once_keepsDue hn honce
  · have hcap (hx : n.index = x) : 2 ≤ cap := (hcap hx).resolve_right honce
    unfold byRule
    split
    · next k hk =>
      have hadds : Adds env x cap n (token n k) 2 [] := inferInstance
      refine keepsDue_of_adds hn hadds hcap ?_ ?_ (by decide)
      all_goals simp [Tree.isForm, hk]
    · next f hk => exact ruleFor_keepsDue hn hcap hplace hk

end Rules

/-! ### Files -/

section Files

variable {file : SourceFile}

/-- Only the rule for a comma comes to a list, unless the rule hands on what a part comes to. -/
lemma joining_node (hjoins : ∀ n ∈ file.root.nodes, IsComma n → Grammar.Joins n) (place : Place)
    (depth : Nat) : Joining { file, place, recur := node file depth } where
  joins := hjoins
  comma {place m r s a} hholder hrun htype := by
    cases depth with
    | zero => cases hrun
    | succ depth =>
      change byRule m { file, place, recur := node file depth } r = .ok (a, s) at hrun
      by_cases hcomma : IsComma m
      · rw [byRule_of_comma hcomma] at hrun
        exact ⟨hcomma, (native_of_sequence hrun).2⟩
      · exact absurd htype ((byRule_noSequence hholder hcomma).type_ne hrun)

/-- **A tree takes a number no more than `cap` times for each time that it occurs in it.** -/
theorem counted_node (h : Countable file x)
    (hjoins : ∀ n ∈ file.root.nodes, IsComma n → Grammar.Joins n)
    (hone : 1 ≤ cap) (hcap : ∀ n ∈ file.root.nodes, n.index = x → 2 ≤ cap ∨ NumberedOnce n)
    (place : Place) (depth : Nat) : Counted { file, place, recur := node file depth } x cap := by
  have hasked := asked_node h.parsed.sited (chainLaw_upheld h.parsed)
  induction depth generalizing place with
  | zero =>
    exact ⟨hasked 0 place, joining_node hjoins place 0, h, hone, fun _ _ _ _ hrun => nomatch hrun⟩
  | succ depth ih =>
    refine ⟨hasked _ place, joining_node hjoins place _, h, hone, ?_⟩
    intro below p m r s a hp hm hparent hr hrun
    let env : Env := { file, place := below, recur := node file depth }
    have hcounted : Counted env x cap := ih below
    have hmNodes : m ∈ file.root.nodes := Tree.mem_nodes_trans hp (Tree.mem_nodes_of_mem hm)
    have hkeeps : KeepsDue env x cap m (byRule m) :=
      byRule_keepsDue hmNodes ⟨p, hp, hm, hparent⟩ (hcap m hmNodes)
    exact hkeeps.grew hr hrun

instance [Counted env x cap] : Adds env x cap n (program n) 1 [.statement] := by
  unfold program
  infer_instance

end Files

end Convert

/-- In a tree without repetitions a number occurs once. -/
lemma load_le_one {file : SourceFile} {x : Nat} (h : Parsed file) : load x file.root ≤ 1 :=
  List.nodup_iff_count_le_one.1 h.ids x

/-- **A converted file takes the number of a node at most twice, and that of some nodes once.** -/
theorem ofFile_grew {file : SourceFile} {x cap : Nat} {c : Conversion} (h : Countable file x)
    (hjoins : ∀ n ∈ file.root.nodes, Convert.IsComma n → Grammar.Joins n)
    (hone : 1 ≤ cap)
    (hcap : ∀ n ∈ file.root.nodes, n.index = x → 2 ≤ cap ∨ Convert.NumberedOnce n)
    (hrun : Conversion.ofFile file = .ok c) : Grew file x cap {} c.registry := by
  have hcounted : Counted (fileEnv file) x cap :=
    Convert.counted_node h hjoins hone hcap {} file.root.height
  have hadds : Adds (fileEnv file) x cap file.root (Convert.program file.root) 1 [.statement] :=
    inferInstance
  rw [ofFile_eq] at hrun
  cases hprogram : Convert.program file.root (fileEnv file) {} with
  | error e =>
    rw [hprogram] at hrun
    cases hrun
  | ok p =>
    rw [hprogram] at hrun
    cases hrun
    refine (hadds.grew (Tree.mem_nodes_self _) Registry.sound_empty hprogram).mono ?_
    have hcost := Nat.mul_le_mul_left cap
      (cost_le (x := x) (n := file.root) (show [Role.statement].Nodup by decide))
    have hload := Nat.mul_le_mul_left cap (load_le_one (x := x) h.parsed)
    rw [load_eq, Nat.mul_add, Nat.mul_one] at hload
    split at hload
    · next hx =>
      rw [if_pos hx]
      omega
    · next hx =>
      rw [if_neg hx]
      omega

end EstreeLint.Estree
