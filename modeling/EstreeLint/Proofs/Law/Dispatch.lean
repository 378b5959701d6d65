import EstreeLint.Proofs.Census.Parents
import EstreeLint.Proofs.Law.Targets
import EstreeLint.Proofs.Layout.WellFormed
import EstreeLint.Proofs.Shapes.Statements

/-!
All rules under a law, and with them the conversion of a file.
-/

namespace EstreeLint.Estree

/-- Forms with parts that may be converted as targets. -/
def targetForms : List Form :=
  [.arrayLiteralExpression, .objectLiteralExpression, .propertyAssignment,
    .shorthandPropertyAssignment, .spreadAssignment, .spreadElement, .binaryExpression,
    .forInStatement, .forOfStatement]

/-- Declarations that may be exported. -/
def exportForms : List Form :=
  [.variableStatement, .functionDeclaration, .classDeclaration, .interfaceDeclaration,
    .typeAliasDeclaration, .enumDeclaration, .moduleDeclaration, .importEqualsDeclaration]

/-- Forms of which a law has to say more than that their parts are read. -/
def specialForms : List Form := targetForms ++ linkForms ++ exportForms

namespace Convert

variable {env : Env} {L : Law env.file} {Γ : Facts env.file} {n : Node}
  {f : Form} [Asked env L]

omit [Asked env L] in
lemma gives_orElse {o o' : Option (Convert EsNode)} (h : ∀ p, o = some p → Gives env L Γ p)
    (h' : ∀ p, o' = some p → Gives env L Γ p) : ∀ p, (o <|> o') = some p → Gives env L Γ p := by
  cases o with
  | some q => exact h
  | none => exact h'

section Plain

variable (hplain : Plain L n) (hk : n.kind = .form f) (hf : f ∉ specialForms)

include hplain hk hf

lemma expressionForm_gives (p : Convert EsNode) (h : expressionForm n f = some p) :
    Gives env L Γ p := by
  refine .given hplain ?_
  unfold expressionForm at h
  split at h <;> cases h
  all_goals first
    | infer_instance
    | exact absurd (by decide) hf
    | exact parameter_gives (beq_iff_eq.2 hk)
    | exact classExpression_gives hk

lemma statementForm_gives (p : Convert EsNode) (h : statementForm n f = some p) :
    Gives env L Γ p := by
  refine .given hplain ?_
  unfold statementForm at h
  split at h <;> cases h
  all_goals first
    | infer_instance
    | exact absurd (by decide) hf
    | exact variableDeclarator_gives hk

lemma declarationForm_gives (p : Convert EsNode) (h : declarationForm n f = some p) :
    Gives env L Γ p := by
  refine .given hplain ?_
  unfold declarationForm at h
  split at h <;> cases h
  all_goals first
    | infer_instance
    | exact absurd (by decide) hf
    | exact method_gives (hplain.opening _ (by rw [hk]; rfl))
    | exact constructorMember_gives (hplain.opening _ (by rw [hk]; rfl))
    | exact attributesObject_gives hk

omit hk hf in
lemma typeForm_gives (p : Convert EsNode) (h : typeForm n f = some p) : Gives env L Γ p := by
  refine .given hplain ?_
  unfold typeForm at h
  split at h <;> cases h <;> infer_instance

omit hf in
lemma elementForm_gives (p : Convert EsNode) (h : elementForm n f = some p) :
    Gives env L Γ p := by
  refine .given hplain ?_
  unfold elementForm at h
  split at h <;> cases h
  all_goals first
    | infer_instance
    | exact jsxAttribute_gives hk

/-- The rule for a form that no law has to say more of. -/
lemma ruleFor_gives : Gives env L Γ (ruleFor n f) := by
  unfold ruleFor
  cases h : expressionForm n f <|> statementForm n f <|> declarationForm n f <|> typeForm n f <|>
      elementForm n f with
  | some p =>
    refine gives_orElse (expressionForm_gives hplain hk hf)
      (gives_orElse (statementForm_gives hplain hk hf) ?_) p h
    exact gives_orElse (declarationForm_gives hplain hk hf)
      (gives_orElse (typeForm_gives hplain) (elementForm_gives hplain hk))
  | none => exact inferInstanceAs (Gives env L Γ (unexpected n))

end Plain

/-- **The rule for a node**: what is special about some forms is up to the law. -/
theorem byRule_gives
    (hspecial : ∀ f ∈ specialForms, n.kind = .form f → Gives env L Γ (ruleFor n f))
    (hplain : (∀ f ∈ specialForms, n.kind ≠ .form f) → Plain L n) :
    Gives env L Γ (byRule n) := by
  unfold byRule
  split
  · next k hk =>
    have hplain := hplain fun f _ => by simp [hk]
    exact .given hplain inferInstance
  · next f hk =>
    by_cases hf : f ∈ specialForms
    · exact hspecial f hf hk
    · refine ruleFor_gives (hplain fun g hg hkg => hf ?_) hk hf
      obtain rfl := NodeKind.form.inj (hk.symm.trans hkg)
      exact hg

/-! ### Laws for which some forms are like others -/

section Usual

variable (hplain : Plain L n)

include hplain

/-- A law under which it does not matter what is a target. -/
lemma targetRule_gives (hk : n.kind = .form f) (hf : f ∈ targetForms)
    (hask : ∀ m ∈ n.children, L.asks true m)
    (hsequence : n.kind = .form .binaryExpression → operator? n = some .comma →
      L.makes (some n.index) .sequenceExpression) : Gives env L Γ (ruleFor n f) := by
  have hpart {r : Role} : Quiet L n r := fun m hm => hplain.part m (Below.mem_of_partsOf hm)
  have hparts {b : Bool} {r : Role} : ∀ m ∈ n.partsOf r, L.asks b m := fun m hm => by
    cases b with
    | true => exact hask m (Below.mem_of_partsOf hm)
    | false => exact L.inner_asks (hpart m hm)
  have hmakes {t : NodeType} (ht : isPlain t = true) : Makes L (some n) t := hplain.makes t ht
  simp only [targetForms, List.mem_cons, List.not_mem_nil, or_false] at hf
  have hspread : Gives env L Γ (spread n) :=
    spread_gives hplain.start hparts (by split <;> exact hmakes rfl)
  have hforEach : Gives env L Γ (forEachStatement n) :=
    forEachStatement_gives hplain.start hparts hpart hpart hplain.makes
  rcases hf with rfl | rfl | rfl | rfl | rfl | rfl | rfl | rfl | rfl
  · exact arrayLiteral_gives hplain.start hparts (by split <;> exact hmakes rfl)
  · exact objectLiteral_gives hplain.start hparts (by split <;> exact hmakes rfl)
  · exact propertyAssignment_gives hplain.start hpart hparts (hmakes rfl)
  · exact shorthandProperty_gives hplain.start (fun m hm => ⟨hparts m hm, hparts m hm⟩) hpart
      (hmakes rfl)
  · exact hspread
  · exact hspread
  · exact binaryExpression_gives (fun _ _ _ => hplain) (hsequence hk) hplain.start hpart
      (fun _ _ _ => hparts) (fun _ _ _ => by split <;> exact hmakes rfl) hk
  · exact hforEach
  · exact hforEach

/-- A law under which links and chains are nodes like others. -/
lemma linkRule_gives (hloose : Loose L) (hk : n.kind = .form f) (hf : f ∈ linkForms)
    (hmakes : ∀ t ∈ linkTypes, L.makes (some n.index) t) : Gives env L Γ (ruleFor n f) :=
  .given hplain (link_gives hf hk fun hlink hps =>
    wrapChain_gives hloose hplain.mem (.inl ⟨f, hf, hk⟩) hplain.start hmakes hlink hps)

omit [Asked env L] hplain in
lemma exists_draft (n : Node) (hf : f ∈ exportForms) : ∃ p, draft? n f = some p := by
  simp only [exportForms, List.mem_cons, List.not_mem_nil, or_false] at hf
  rcases hf with rfl | rfl | rfl | rfl | rfl | rfl | rfl | rfl <;> exact ⟨_, rfl⟩

/-- A law that does not hang on where declarations start. -/
lemma exportRule_gives (hr : Rangeless L) (hk : n.kind = .form f) (hf : f ∈ exportForms)
    (hclosed : n.kind = .form .moduleDeclaration →
      ∀ n m, L.inner n → m ∈ n.partsOf .body → L.inner m) :
    Gives env L Γ (ruleFor n f) := by
  obtain ⟨p, hp⟩ := exists_draft n hf
  have hpart {r : Role} : Quiet L n r := fun m hm => hplain.part m (Below.mem_of_partsOf hm)
  have hdrawn := drawn_of_plain hplain hpart fun hk => nested_of_closed (hclosed hk) hpart _
  rw [ruleFor_eq_draft hp]
  exact .given hdrawn (.bind (draft_gives hk hp) fun d => declared_loose hr hplain)

end Usual

end Convert

/-! ### Files -/

/-- The rule for every node that may be asked for keeps to the law. -/
def Law.Upheld {file : SourceFile} (L : Law file) : Prop :=
  ∀ (place : Place) (depth : Nat) (n : Node),
    Asked { file, place, recur := Convert.node file depth } L → L.asks place.isTarget n →
      Gives { file, place, recur := Convert.node file depth } L .none (Convert.byRule n)

namespace Convert

variable {file : SourceFile}

/-- Names and patterns give bindings. -/
lemma isBindingType_of_run {place : Place} {n : Node} {depth : Nat} {r s : Registry} {a : EsNode}
    (hbinds : Grammar.Binds n) (hquery : place.inQuery = false)
    (hrun : node file depth place n r = .ok (a, s)) : isBindingType a.type = true := by
  cases depth with
  | zero => cases hrun
  | succ depth =>
    rw [node, byRule] at hrun
    rcases hbinds with hk | hk | hk <;> rw [hk] at hrun
    · have hname : (if (n.nameText?.getD "" == "this") && place.inQuery then
          finish n .thisExpression
        else finish n .identifier (identifierParts (n.nameText?.getD "")))
          { file, place, recur := node file depth } r = .ok (a, s) := hrun
      rw [hquery, Bool.and_false, if_neg Bool.false_ne_true] at hname
      rw [finish_type hname]
      rfl
    · obtain ⟨elements, t, -, hlast⟩ := run_bind_eq_ok (p := childrenOrHoles n .element false) hrun
      rw [finish_type hlast]
      rfl
    · obtain ⟨properties, t, -, hlast⟩ := run_bind_eq_ok (p := children n .element) hrun
      rw [finish_type hlast]
      rfl

variable {L : Law file}

/-- **A whole tree is converted under a law that its rules keep to.** -/
theorem asked_node (hs : SitedIn file file.root) (hlaw : L.Upheld) (depth : Nat) (above : Place) :
    Asked { file, place := above, recur := node file depth } L := by
  induction depth generalizing above with
  | zero => exact ⟨hs, (fun _ _ hrun => nomatch hrun), isBindingType_of_run⟩
  | succ depth ih =>
    refine ⟨hs, (fun {place n r s a} hask hkept hrun => ?_), isBindingType_of_run⟩
    exact (hlaw place depth n (ih place) hask).moves trivial hkept hrun

lemma program_gives {env : Env} {L : Law env.file} {n : Node} [Asked env L] (hplain : Plain L n) :
    Gives env L .none (program n) := by
  refine .given hplain (.bind inferInstance fun statements => .ofRead ?_)
  infer_instance

end Convert

/-- The program that a file is converted to keeps to a law that what lies below keeps to. -/
lemma ofFile_moves_of_asked {file : SourceFile} {L : Law file} {c : Conversion}
    (hasked : Asked (fileEnv file) L) (hroot : Plain L file.root)
    (h : Conversion.ofFile file = .ok c) : Moves L {} c.registry c.program := by
  rw [ofFile_eq] at h
  cases hrun : Convert.program file.root (fileEnv file) {} with
  | error e =>
    rw [hrun] at h
    cases h
  | ok p =>
    rw [hrun] at h
    cases h
    exact (@Convert.program_gives (fileEnv file) L _ hasked hroot).moves trivial
      Registry.kept_empty hrun

/-- **The program that a file is converted to keeps to a law that the rules keep to.** -/
theorem ofFile_moves {file : SourceFile} {L : Law file} {c : Conversion}
    (hs : SitedIn file file.root) (hlaw : L.Upheld) (hroot : Plain L file.root)
    (h : Conversion.ofFile file = .ok c) : Moves L {} c.registry c.program :=
  ofFile_moves_of_asked (Convert.asked_node hs hlaw file.root.height {}) hroot h

/-! ### Files that have been parsed -/

/-- What is known of the tree of a file that has been parsed, with errors or without. -/
structure Parsed (file : SourceFile) : Prop where
  ids : (file.root.nodes.map Tree.index).Nodup
  pos_le_stop : ∀ n ∈ file.root.nodes, n.pos ≤ n.stop
  sited : SitedIn file file.root
  shaped : Grammar.Shaped file.text file.root

lemma parsed_parse (name : String) (text : Source) : Parsed (SourceFile.parse name text) := by
  have hlaid := Grammar.parseSource_laid text (.ofFileName name) true
  have hids := hlaid.nodup_index
  have hinside := hlaid.inside
  rw [show Tree.forestNodes _ = _ from List.append_nil _] at hids hinside
  exact {
    ids := hids
    pos_le_stop := fun n hn => (hinside n hn).pos_le_stop
    sited := sitedIn_parse name text
    shaped := Grammar.parseSource_shaped text (.ofFileName name) true }

namespace Parsed

variable {file : SourceFile} {n m : Node} {r : Role}

lemma mem_part (hn : n ∈ file.root.nodes) (hm : m ∈ n.partsOf r) : m ∈ file.root.nodes :=
  Tree.mem_nodes_trans hn (Tree.mem_nodes_of_mem (Below.mem_of_partsOf hm))

variable (h : Parsed file)

include h

lemma eq_of_index (hn : n ∈ file.root.nodes) (hm : m ∈ file.root.nodes)
    (hindex : n.index = m.index) : n = m := List.inj_on_of_nodup_map h.ids hn hm hindex

/-- What the rule for a node above makes something of is a name, or of a kind that is converted
there only. -/
lemma inlined_cases (hn : Inlined file n) : Grammar.TagName n ∨ n.kind = .form .importAttribute ∨
    n.kind = .form .expressionWithTypeArguments := by
  have hmet {n m : Node} {r : Role} (hn : n ∈ file.root.nodes) (hm : m ∈ n.partsOf r) :
      (Grammar.demand n.kind r).Met m := (h.shaped n hn).parts r m hm
  induction hn with
  | token hk => exact .inl (.token hk)
  | @tag n m hn hm =>
    left
    have h := hmet hn hm
    unfold Grammar.demand at h
    split at h <;> first
      | exact h
      | exact h.elim
      | exact .token h.choose_spec
      | simp_all
  | dotted _ hk hm ih =>
    rcases ih with ih | ih | ih
    · cases ih with
      | token hk' => simp [hk'] at hk
      | spaced hk' => simp [hk'] at hk
      | dotted _ hcs => exact .inl (hcs _ hm)
    · simp [hk] at ih
    · simp [hk] at ih
  | @spaced n m hn hk hm =>
    have h := hmet hn (r := m.role) (List.mem_filter.2 ⟨hm, by simp⟩)
    rw [hk] at h
    left
    unfold Grammar.demand at h
    split at h <;> first
      | exact h.elim
      | exact .token h.choose_spec
      | simp_all
  | attributeName hn hk hm =>
    have h := hmet hn hm
    rw [hk] at h
    exact .inl h
  | entry hn hk hm =>
    have h := hmet hn hm
    rw [hk] at h
    exact .inr (.inl h)
  | @heritage n c m hn hc hm =>
    have hclause : c.kind = .form .heritageClause := by
      have h := hmet hn hc
      unfold Grammar.demand at h
      split at h <;> first
        | exact h
        | exact h.elim
        | simp_all
    have h := hmet (mem_part hn hc) hm
    rw [hclause] at h
    exact .inr (.inr h)

/-- Such a node is of no kind that a law has to say more of, but for a link in a name. -/
lemma inlined_form {f : Form} (hn : Inlined file n) (hk : n.kind = .form f) :
    f ∉ targetForms ∧ f ∉ exportForms := by
  rcases h.inlined_cases hn with h | h | h
  · cases h with
    | token hk' => simp [hk] at hk'
    | spaced hk' | dotted hk' _ =>
      obtain rfl := NodeKind.form.inj (hk.symm.trans hk')
      decide
  all_goals
    obtain rfl := NodeKind.form.inj (hk.symm.trans h)
    decide

end Parsed

end EstreeLint.Estree
