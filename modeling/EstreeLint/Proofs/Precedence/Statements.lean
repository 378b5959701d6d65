import EstreeLint.Grammar.Statement
import EstreeLint.Proofs.Layout.WellFormed
import EstreeLint.Proofs.Precedence.Operations

/-!
Every operation in the tree of a text climbs.

The rules for statements, declarations and modules make no binary expression, and only two of them
make a namespace. So every goal adds only graded nodes, however deep rules are nested, and the tree
of a text is made of such nodes.
-/

namespace EstreeLint.Grammar

open Parse

set_option synthInstance.maxSize 20000

variable {R : Runner} {start : Nat} {mods : Option NodeList}

/-! ### Names in modules -/

instance (form : Form) [IsTrue (isOther (.form form))] : Grows R (specifier form) := by
  unfold specifier
  dsimp only
  infer_instance

instance (form each : Form) [IsTrue (isOther (.form form))] [IsTrue (isOther (.form each))] :
    Grows R (specifiers form each) := by
  unfold specifiers
  infer_instance

instance : Grows R namespaceImport := by unfold namespaceImport; infer_instance

instance : Grows R namedBindings := by
  refine .after fun k => ?_
  split <;> infer_instance

instance (typeOnly : Bool) (name : Option Node) :
    Grows R (importClauseRest start typeOnly name) := by
  unfold importClauseRest
  dsimp only
  infer_instance

instance : Grows R importHead := by
  unfold importHead
  dsimp only
  infer_instance

instance : Grows R (namespaceExportDeclaration start) := by
  unfold namespaceExportDeclaration
  infer_instance

section Rules

variable [GrowsGoals R]

/-! ### Imports and exports -/

instance : Grows R moduleSpecifier := by unfold moduleSpecifier; infer_instance

instance : Grows R importAttributes? := by unfold importAttributes?; infer_instance

instance : Grows R moduleReference := by unfold moduleReference; infer_instance

instance (clause : Option Node) : Grows R (importRest start mods clause) := by
  unfold importRest
  infer_instance

instance : Grows R (importDeclaration start mods) := by
  refine .after fun _ => .after fun b => .ite inferInstance (.after fun x => ?_)
  obtain ⟨head, assigned⟩ := x
  cases assigned <;> infer_instance

instance : Grows R (exportAssignment start mods) := by unfold exportAssignment; infer_instance

instance : Grows R exportSource := by unfold exportSource; infer_instance

instance : Grows R exportClause := by unfold exportClause; infer_instance

instance : Grows R (exportDeclaration start mods) := by
  unfold exportDeclaration
  dsimp only
  infer_instance

instance : Grows R (exportRest start mods) := by
  refine .after fun k => ?_
  split <;> infer_instance

/-! ### Namespaces -/

instance : Grows R moduleBlock := by unfold moduleBlock; infer_instance

instance : Grows R moduleBodyOrSemicolon := by unfold moduleBodyOrSemicolon; infer_instance

/-- What stands behind the name of a namespace: a namespace behind a dot, or something else. -/
def IsRest (n : Node) : Prop := n.kind = .form .moduleDeclaration → InnerNamespace n

omit [GrowsGoals R] in
lemma made_moduleBlock : Made R moduleBlock (·.kind = .form .moduleBlock) :=
  .after fun _ => .after fun _ => .after fun _ => .after fun _ => .finish

omit [GrowsGoals R] in
lemma made_name : Made R identifier (·.kind = .token .identifier) := by
  have hword : Made R word (·.kind = .token .identifier) := .after fun _ _ => rfl
  exact .after fun _ => .ite hword (.after fun _ => .ite (.after fun _ => hword)
    (.after fun _ _ => rfl))

lemma made_rest (namespaceWord : Bool) : Made R (reach (.innerNamespace namespaceWord)) IsRest := by
  refine (GrowsGoals.inner namespaceWord).bind fun o ho => ?_
  cases o with
  | none =>
    refine Made.missing.mono fun n ⟨k, hk⟩ hk' => ?_
    rw [hk] at hk'
    cases hk'
  | some n => exact .pure fun _ => ho n rfl

section OfParts

variable {id stop : Nat} {flags : NodeFlags} {name body m : Node}

lemma body_ofParts {o : Option Node}
    (hm : (Node.ofParts id (.form .moduleDeclaration) start stop flags
      [.optional .modifier mods, .one .name name, .one .body o]).part? .body = some m) :
    ∃ b, o = some b ∧ m = b.withRole .body := by
  cases mods <;> cases o <;> simp_all [Node.part?_ofParts, eq_comm]

/-- A namespace with what stands behind its name. -/
lemma graded_namespace (hname : name.kind = .token .identifier) (hbody : IsRest body)
    (hflags : flags.globalAugmentation = false) :
    Graded (.ofParts id (.form .moduleDeclaration) start stop flags
      [.optional .modifier mods, .one .name name, .one .body body]) := by
  refine ⟨nofun, fun _ m hm hk => ?_⟩
  obtain ⟨b, hb, rfl⟩ := body_ofParts hm
  obtain rfl := Option.some.inj hb
  refine ⟨hflags, ⟨name.withRole .name, ?_, by simpa using hname, ?_⟩,
    (hbody (by simpa using hk)).withRole .body⟩
  · cases mods <;> simp [Node.part?_ofParts]
  · exact List.sublist_append_right (Part.nodes (.optional .modifier mods)) _

end OfParts

omit [GrowsGoals R] in
/-- A module whose body is no namespace. -/
lemma Grows.plain {flags : NodeFlags} {name : Node} {body : Option Node}
    (h : ∀ m ∈ body, m.kind ≠ .form .moduleDeclaration) :
    Grows R (finish .moduleDeclaration start
      [.optional .modifier mods, .one .name name, .one .body body] flags) := by
  refine .after fun stop => .push fun id => ⟨nofun, fun _ m hm hk => absurd hk ?_⟩
  obtain ⟨b, hb, rfl⟩ := body_ofParts hm
  simpa using h b hb

lemma namespaceRest_grows {flags : NodeFlags} (hflags : flags.globalAugmentation = false) :
    Grows R (namespaceRest start mods flags) := by
  have hblock : Made R moduleBlock IsRest := made_moduleBlock.mono fun n hk hk' => by
    rw [hk] at hk'
    cases hk'
  have hlast {name : Node} (hname : name.kind = .token .identifier) (body : Node)
      (hbody : IsRest body) : Grows R (finish .moduleDeclaration start
        [.optional .modifier mods, .one .name name, .one .body body] flags) :=
    .after fun stop => .push fun id => graded_namespace hname hbody hflags
  refine .made made_name fun name hname => .after fun b => ?_
  exact .ite (.made (made_rest _) (hlast hname)) (.made hblock (hlast hname))

instance (namespaceWord : Bool) : Grows R (innerNamespace namespaceWord) :=
  .after fun _ => namespaceRest_grows rfl

omit [GrowsGoals R] in
lemma made_node {kind : NodeKind} {stop : Nat} {parts : List Part} {flags : NodeFlags} :
    Made R (node kind start stop parts flags) fun n =>
      ∃ id, n = Node.ofParts id kind start stop flags parts := fun s => ⟨s.arena.size, rfl⟩

omit [GrowsGoals R] in
lemma made_innerNamespace (namespaceWord : Bool) :
    Made R (innerNamespace namespaceWord) InnerNamespace := by
  have hlast {start : Nat} {name : Node} (hname : name.kind = .token .identifier) (body : Node) :
      Made R (finish .moduleDeclaration start
        [.optional .modifier none, .one .name name, .one .body body]
        { nestedNamespace := true, namespaceWord }) InnerNamespace := by
    refine .after fun stop => made_node.mono ?_
    rintro _ ⟨id, rfl⟩
    refine ⟨rfl, ?_, rfl, name.withRole .name, ?_, by simpa using hname⟩
    · simp [Node.partsOf_ofParts]
    · simp [Node.part?_ofParts]
  refine .after fun start => made_name.bind fun name hname => .after fun b => ?_
  exact .ite (.after (hlast hname)) (.after (hlast hname))

instance : Grows R (moduleDeclaration start mods) := by
  have hbody : Made R moduleBodyOrSemicolon fun o =>
    ∀ m ∈ o, m.kind ≠ .form .moduleDeclaration := by
    refine .after fun b => .ite (.given (made_moduleBlock.mono fun n hk => ?_))
      (.after fun _ => .nothing)
    rw [hk]
    decide
  have hplain (flags : NodeFlags) (name : Node) : Grows R (moduleBodyOrSemicolon >>= fun body =>
      finish .moduleDeclaration start
        [.optional .modifier mods, .one .name name, .one .body body] flags) :=
    .made hbody fun body h => .plain h
  refine .after fun opening => .ite (.after fun name => hplain _ name) (.after fun _ => ?_)
  refine .after fun b => .ite (.after fun name => hplain _ name) ?_
  exact namespaceRest_grows rfl

/-! ### Declarations -/

instance : Grows R variableDeclaration := by unfold variableDeclaration; infer_instance

instance : Grows R variableDeclarationList := by
  unfold variableDeclarationList
  dsimp only
  infer_instance

instance : Grows R (variableStatement start mods) := by unfold variableStatement; infer_instance

instance : Grows R (functionDeclaration start mods) := by
  unfold functionDeclaration
  dsimp only
  infer_instance

instance : Grows R (interfaceDeclaration start mods) := by
  unfold interfaceDeclaration
  infer_instance

instance : Grows R (typeAliasDeclaration start mods) := by
  unfold typeAliasDeclaration
  infer_instance

instance : Grows R enumMember := by unfold enumMember; infer_instance

instance : Grows R (enumDeclaration start mods) := by unfold enumDeclaration; infer_instance

instance : Grows R (declarationRest start mods) := by
  refine .after fun k => ?_
  split <;> infer_instance

instance : Grows R declaration := by unfold declaration; infer_instance

/-! ### Statements -/

instance : Grows R expressionOrLabeled := by unfold expressionOrLabeled; infer_instance

instance : Grows R condition := by unfold condition; infer_instance

instance : Grows R ifStatement := by unfold ifStatement; infer_instance

instance : Grows R doStatement := by unfold doStatement; infer_instance

instance : Grows R whileStatement := by unfold whileStatement; infer_instance

omit [GrowsGoals R] in
instance : Grows R atVariables := by
  refine .after fun k => ?_
  split <;> infer_instance

instance (stops : List TokenKind) : Grows R (expressionUnless stops) := by
  unfold expressionUnless
  infer_instance

section Loops

variable (await head : Option Node)

instance (isOf : Bool) : Grows R (forEach start await head isOf) := by
  unfold forEach
  infer_instance

instance : Grows R (forClauses start head) := by unfold forClauses; infer_instance

instance : Grows R (forRest start await head) := by
  unfold forRest
  dsimp only
  infer_instance

end Loops

instance : Grows R forHead := by unfold forHead; infer_instance

instance : Grows R forStatement := by unfold forStatement; infer_instance

omit [GrowsGoals R] in
instance (form : Form) [IsTrue (isOther (.form form))] : Grows R (jump form) := by
  unfold jump
  dsimp only
  infer_instance

instance : Grows R returnStatement := by unfold returnStatement; infer_instance

instance : Grows R withStatement := by unfold withStatement; infer_instance

instance (form : Form) (e : Option Node) [IsTrue (isOther (.form form))] :
    Grows R (clauseBody form start e) := by
  unfold clauseBody
  infer_instance

instance : Grows R clause := by unfold clause; infer_instance

instance : Grows R caseBlock := by unfold caseBlock; infer_instance

instance : Grows R switchStatement := by unfold switchStatement; infer_instance

instance : Grows R throwStatement := by unfold throwStatement; infer_instance

instance : Grows R caughtVariable := by unfold caughtVariable; infer_instance

instance : Grows R catchClause := by unfold catchClause; infer_instance

instance : Grows R tryStatement := by unfold tryStatement; infer_instance

instance : Grows R anyStatement := by
  refine .after fun start => .after fun k => ?_
  split <;> infer_instance

instance : Grows R statement := by unfold statement; infer_instance

instance : Grows R sourceFile := by
  unfold sourceFile
  dsimp only
  infer_instance

end Rules

/-! ### The parse as a whole -/

/-- Every rule adds only graded nodes where the rules in it do. -/
instance [ClimbsGoals R] (g : Goal) : Grows R (rule g) := by
  cases g <;> unfold rule <;> infer_instance

/-- **However deep rules are nested, their goals add only graded nodes.** -/
theorem climbsGoals_runner (fuel : Nat) (remembers : Bool) :
    ClimbsGoals (runner fuel remembers) := by
  induction fuel with
  | zero =>
    have hgrows : Grows .idle tooDeep := by unfold tooDeep; infer_instance
    exact {
      reach?_grows := fun g => ⟨hgrows.grows⟩
      element := fun inExpression s => by simp [show
        ((reach? (.element inExpression)).run (runner 0 remembers) s).1 = none from rfl]
      assignment := fun returnType s => by simp [show
        ((reach? (.assignment returnType)).run (runner 0 remembers) s).1 = none from rfl]
      inner := fun word s => by simp [show
        ((reach? (.innerNamespace word)).run (runner 0 remembers) s).1 = none from rfl]
      binary := fun above s _ => ⟨fun n hn => (by cases hn), settled_giveUp (R := .idle)⟩ }
  | succ fuel ih =>
    exact {
      reach?_grows := fun g => ⟨(inferInstance : Grows (runner fuel remembers) (rule g)).grows⟩
      element := fun inExpression s => (made_element (R := runner fuel remembers)).some s
      assignment := fun returnType s => (made_assignmentRule (R := runner fuel remembers)).some s
      inner := fun word s => (made_innerNamespace (R := runner fuel remembers) word).some s
      binary := fun above s hs => by
        obtain ⟨-, hwithin, hsettled⟩ := binary_climbs (R := runner fuel remembers) above hs
        exact ⟨fun n hn => Option.some.inj hn ▸ hwithin, hsettled⟩ }

lemma parseSource_graded (source : Source) (variant : Variant) (remembers : Bool) :
    AllGraded (parseSource source variant remembers).2.arena := by
  have := climbsGoals_runner (fuelFor (Text.bytes source)) remembers
  exact (inferInstance : Grows (runner (fuelFor (Text.bytes source)) remembers) sourceFile).grows
    (State.ofSource source variant) (by simp [AllGraded, State.ofSource])

end EstreeLint.Grammar

namespace EstreeLint.SourceFile

open Grammar

variable {name : String} {text : Source} {n : Node}

lemma graded_parse (hn : n ∈ (parse name text).root.nodes) : Graded n := by
  have hlive := (wellFormed_parse name text).live n hn
  have hgraded := parseSource_graded text (Variant.ofFileName name) true
  exact .of_withRole n .root (hgraded _ (Array.mem_of_getElem? hlive))

/-- An expression stands before every comma between expressions. -/
lemma joins_parse (hn : n ∈ (parse name text).root.nodes) (h : operator? n = some .comma) :
    Joins n := by
  obtain ⟨k, hk, -, hjoins⟩ := (graded_parse hn).climbs (kind_of_operator? h)
  exact hjoins (Option.some.inj (hk.symm.trans h))

/-- **Precedence and associativity**: whatever the text is, every binary expression in its tree has
an operator, and unless that is a comma or an assignment the expression has two operands that bind
as tightly as their side of the operator asks. -/
theorem operations_climb (name : String) (text : Source) :
    ∀ n ∈ (parse name text).root.nodes, n.kind = .form .binaryExpression →
      ∃ k, operator? n = some k ∧ (isTight k = true → Climbs k n) := by
  intro n hn hkind
  obtain ⟨k, hk, hclimbs, -⟩ := (graded_parse hn).climbs hkind
  exact ⟨k, hk, hclimbs⟩

/-- Operators of three levels, with two powers in a row. -/
def mixedOperators : Source := "a - b + c * d ** e ** f".toList

theorem mixedOperators_climb : ∃ n ∈ (parse "a.ts" mixedOperators).root.nodes,
    operator? n = some .plus ∧ Climbs .plus n := by
  have hfound : ((parse "a.ts" mixedOperators).root.nodes.find?
      (operator? · == some .plus)).isSome = true := by decide +kernel
  obtain ⟨n, hn⟩ := Option.isSome_iff_exists.1 hfound
  have hmem := List.mem_of_find?_eq_some hn
  have hoperator : operator? n = some .plus := by simpa using List.find?_some hn
  obtain ⟨k, hk, hclimbs⟩ :=
    operations_climb "a.ts" mixedOperators n hmem (kind_of_operator? hoperator)
  obtain rfl := Option.some.inj (hoperator.symm.trans hk)
  exact ⟨n, hmem, hoperator, hclimbs rfl⟩

end EstreeLint.SourceFile
