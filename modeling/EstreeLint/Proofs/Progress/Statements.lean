import EstreeLint.Proofs.Grammar.Statements
import EstreeLint.Proofs.Progress.Operations

/-!
The rules for modules, declarations and statements go forward, and with them the rule of every
goal.
-/

namespace EstreeLint.Grammar

open Parse

variable {ρ : Nat} {K : Scanner → Prop}

set_option synthInstance.maxSize 20000

/-! ### Imports -/

instance : Proceeds (ρ + 2) moduleSpecifier := by unfold moduleSpecifier; infer_instance

instance : Proceeds 4 importAttributes? := by unfold importAttributes?; infer_instance

instance : Proceeds ρ atTypeOnlySpecifier := by
  refine .and inferInstance (.ahead (.sub fun k => ?_))
  split <;> exact .named

instance (form : Form) : Proceeds ρ (specifier form) := by unfold specifier; infer_instance

instance (form each : Form) : Proceeds ρ (specifiers form each) := by
  unfold specifiers
  infer_instance

instance : Opened HasToken namespaceImport := by
  unfold namespaceImport
  infer_instance

instance : Proceeds ρ atTypeOnlyImport := by
  refine .and inferInstance (.ahead (.sub fun k => ?_))
  split <;> exact .named

instance : Proceeds 4 moduleReference := by unfold moduleReference; infer_instance

instance : Proceeds ρ namedBindings where
  starts := .token fun k => by
    split
    · exact .take .opened
    · exact .named
    · exact .named

instance (start : Nat) (mods : Option NodeList) (clause : Option Node) :
    Proceeds 4 (importRest start mods clause) := by unfold importRest; infer_instance

instance (start : Nat) (typeOnly : Bool) (name : Option Node) :
    Proceeds 4 (importClauseRest start typeOnly name) := by
  unfold importClauseRest
  infer_instance

instance : Proceeds 4 importHead := by unfold importHead; infer_instance

instance (start : Nat) (mods : Option NodeList) :
    Opened (Begins .importKw) (importDeclaration start mods) where
  starts ρ := .takeThen .opened fun _ => .sub fun b => .ite .named <| .sub fun x => by
    dsimp only
    split <;> exact .named

/-! ### Exports -/

instance (start : Nat) (mods : Option NodeList) : Proceeds 4 (exportAssignment start mods) := by
  unfold exportAssignment
  infer_instance

instance (start : Nat) : Proceeds 4 (namespaceExportDeclaration start) := by
  unfold namespaceExportDeclaration
  infer_instance

instance : Proceeds 4 exportSource := by unfold exportSource; infer_instance

instance : Proceeds 4 exportClause := by unfold exportClause; infer_instance

instance (start : Nat) (mods : Option NodeList) : Proceeds 4 (exportDeclaration start mods) := by
  unfold exportDeclaration
  dsimp only
  infer_instance

instance (start : Nat) (mods : Option NodeList) : Proceeds 4 (exportRest start mods) where
  starts := .sub fun k => by split <;> exact .named

/-! ### Namespaces -/

instance : Proceeds (ρ + 3) moduleBlock := inferInstanceAs (Proceeds (ρ + 3) (braced _))

instance : Opened (Begins .openBrace) moduleBlock :=
  inferInstanceAs (Opened _ (braced _))

instance : Proceeds ρ moduleBodyOrSemicolon where
  starts := .isAt (.take .opened) .named

instance (start : Nat) (mods : Option NodeList) (flags : NodeFlags) :
    Proceeds (ρ + 3) (namespaceRest start mods flags) where
  starts := .sub fun name => .acceptIf .named

instance (namespaceWord : Bool) : Proceeds (ρ + 3) (innerNamespace namespaceWord) := by
  unfold innerNamespace
  infer_instance

lemma moduleDeclaration_starts (start : Nat) (mods : Option NodeList) :
    Starts ρ HasToken (moduleDeclaration start mods) fun _ _ => True :=
  .look fun opening => .ite .named (.take .opened)

/-! ### Declarations -/

instance : Proceeds ρ variableDeclaration := by unfold variableDeclaration; infer_instance

instance : Opened HasToken variableDeclarationList where
  starts ρ := .look fun start => .look fun opening => .ite (.take .opened) (.take .opened)

instance (start : Nat) (mods : Option NodeList) :
    Opened HasToken (variableStatement start mods) := by
  unfold variableStatement
  infer_instance

instance (start : Nat) (mods : Option NodeList) :
    Opened (Begins .functionKw) (functionDeclaration start mods) := by
  unfold functionDeclaration
  infer_instance

instance (start : Nat) (mods : Option NodeList) :
    Opened (Begins .interfaceKw) (interfaceDeclaration start mods) := by
  unfold interfaceDeclaration
  infer_instance

instance (start : Nat) (mods : Option NodeList) :
    Opened (Begins .typeKw) (typeAliasDeclaration start mods) := by
  unfold typeAliasDeclaration
  infer_instance

instance : Proceeds ρ enumMember := by unfold enumMember; infer_instance

instance (start : Nat) (mods : Option NodeList) :
    Opened (Begins .enumKw) (enumDeclaration start mods) := by
  unfold enumDeclaration
  infer_instance

instance : Proceeds ρ atLetDeclaration := by unfold atLetDeclaration; infer_instance

instance : Proceeds ρ atAwaitUsing := by unfold atAwaitUsing; infer_instance

/-- The verdict hangs on the next word only behind a word that has been taken. -/
lemma declarationVerdict_starts : Starts ρ K declarationVerdict fun o _ => o ≠ none :=
  .token fun k => by
    split
    iterate 8 exact .pure
    iterate 3 exact .sub fun _ => .pure
    iterate 13 exact .take .opened
    · exact .pure

lemma forward_nextVerdict : (Loop.iterate nextVerdict).Forward ρ := by
  refine ⟨fun v _ => v ≠ none, fun v => ?_, fun v R s h => ?_⟩
  · cases v with
    | some b => exact .pure (by simp [Loop.iterate])
    | none => exact .bind declarationVerdict_starts fun o => .pure (by simp_all [Loop.iterate])
  · obtain ⟨b, rfl⟩ := Option.ne_none_iff_exists'.1 h
    rfl

instance : Proceeds ρ atDeclaration := by
  have (v : Option Bool) : Proceeds ρ (iterate nextVerdict v) :=
    iterate_eq nextVerdict v ▸ forward_nextVerdict.proceeds v
  unfold atDeclaration
  infer_instance

instance (start : Nat) (mods : Option NodeList) : Proceeds ρ (declarationRest start mods) where
  starts := .token fun k => by
    split
    iterate 10 exact .opened
    iterate 3 exact (moduleDeclaration_starts start mods).mono
    · exact .opened
    · exact .take .opened
    · exact .named

instance : Proceeds ρ declaration := by unfold declaration; infer_instance

/-! ### Statements -/

instance : Proceeds (ρ + 2) expressionOrLabeled where
  starts := by
    refine .sub fun start => .sub fun startsWithName => .sub fun e => ?_
    refine .bind (.both (Starts.accepting (K := Anywhere)).mono) fun labels => .fact ?_
    rintro rfl
    simpa using .named

instance : Proceeds 4 condition := by unfold condition; infer_instance

instance : Opened HasToken ifStatement := by unfold ifStatement; infer_instance

instance : Opened HasToken doStatement := by unfold doStatement; infer_instance

instance : Opened HasToken whileStatement := by
  unfold whileStatement
  infer_instance

instance : Proceeds ρ atVariables where
  starts := .sub fun k => by split <;> exact .named

instance (stops : List TokenKind) : Proceeds (ρ + 2) (expressionUnless stops) := by
  unfold expressionUnless
  infer_instance

instance (start : Nat) (await head : Option Node) (isOf : Bool) :
    Proceeds 4 (forEach start await head isOf) := by
  unfold forEach
  infer_instance

instance (start : Nat) (head : Option Node) : Proceeds 4 (forClauses start head) := by
  unfold forClauses
  infer_instance

instance (start : Nat) (await head : Option Node) : Proceeds 4 (forRest start await head) := by
  unfold forRest
  infer_instance

instance : Proceeds 4 forHead := by unfold forHead; infer_instance

instance : Opened HasToken forStatement := by unfold forStatement; infer_instance

instance (form : Form) : Opened HasToken (jump form) := by
  unfold jump
  infer_instance

instance : Opened HasToken returnStatement := by
  unfold returnStatement
  infer_instance

instance : Opened HasToken withStatement := by
  unfold withStatement
  infer_instance

instance (form : Form) (start : Nat) (e : Option Node) : Proceeds 4 (clauseBody form start e) := by
  unfold clauseBody
  infer_instance

instance : Proceeds 4 clause := by unfold clause; infer_instance

instance : Proceeds 4 caseBlock := by unfold caseBlock; infer_instance

instance : Opened HasToken switchStatement := by
  unfold switchStatement
  infer_instance

instance : Opened HasToken throwStatement := by
  unfold throwStatement
  infer_instance

instance : Proceeds 4 caughtVariable := by unfold caughtVariable; infer_instance

instance : Opened HasToken catchClause := by unfold catchClause; infer_instance

instance : Opened HasToken tryStatement := by unfold tryStatement; infer_instance

instance : Proceeds (ρ + 2) anyStatement where
  starts := .look fun start => .token fun k => by
    split
    · exact .take .opened
    · exact .opened
    · exact .opened
    iterate 3 exact .look fun _ => .ite .opened .named
    iterate 13 exact .opened
    · exact .take .opened
    iterate 20 exact .named

instance : Proceeds (ρ + 2) statement := by unfold statement; infer_instance

/-! ### Goals -/

/-- **The rule of a goal goes forward**, and reaches only goals of lower rank at the token that it
begins at. -/
theorem rule_proceeds (g : Goal) : Proceeds g.rank (rule g) := by
  cases g with
  | statement => exact inferInstanceAs (Proceeds 2 statement)
  | assignment returnType => exact inferInstanceAs (Proceeds 1 (some <$> assignment returnType))
  | binary above => exact inferInstanceAs (Proceeds 1 (some <$> binary above))
  | simpleUnary => exact inferInstanceAs (Proceeds 1 (some <$> simpleUnary))
  | leftHandSide => exact inferInstanceAs (Proceeds 0 (some <$> leftHandSide))
  | primary => exact inferInstanceAs (Proceeds 0 (some <$> primary))
  | element inExpression => exact inferInstanceAs (Proceeds 0 (some <$> element inExpression))
  | type => exact inferInstanceAs (Proceeds 0 (some <$> type))
  | typeOperator => exact inferInstanceAs (Proceeds 0 (some <$> typeOperator))
  | binding => exact inferInstanceAs (Proceeds 0 (some <$> binding))
  | innerNamespace word => exact inferInstanceAs (Proceeds 3 (some <$> innerNamespace word))

end EstreeLint.Grammar
