import EstreeLint.Proofs.Grammar.Statements
import EstreeLint.Proofs.Layout.Expressions

/-!
What the rules for modules, declarations and statements lay out, and the parse as a whole.
-/

namespace EstreeLint.Grammar

open Parse

variable {R : Runner} {m : Place} {ns : List Node} [LaysGoals R]

/-! ### Imports -/

instance : Lays R moduleSpecifier := .lookIf inferInstance (.of fun _ => .pass fun _ => .last)

instance : Lays R importAttributes? := .of fun _ => .askIf (.sub fun n => .pure) .pure

omit [LaysGoals R] in
lemma specifier_lays {form : Form} (hform : form ≠ .expressionWithTypeArguments) :
    Lays R (specifier form) := by
  refine .start fun _ => .pass fun typeOnly => .onlyIf (.sub fun first => ?_)
  exact .askIf (.sub fun name => .finish hform) (.finish hform)

omit [LaysGoals R] in
lemma specifiers_lays {form each : Form} (hform : form ≠ .expressionWithTypeArguments := by decide)
    (heach : each ≠ .expressionWithTypeArguments := by decide) : Lays R (specifiers form each) := by
  have := specifier_lays (R := R) heach
  exact .start fun _ => .sub fun list => .finish hform

omit [LaysGoals R] in
instance : Lays R namespaceImport :=
  .start fun _ => .pass fun _ => .pass fun _ => .sub fun name => .finish

instance : Lays R moduleReference := by
  refine .lookIf (.start fun _ => .pass fun _ => .pass fun _ => ?_) inferInstance
  exact .sub fun e => .pass fun _ => .finish

omit [LaysGoals R] in
instance : Lays R namedBindings := by
  refine .of fun _ => .pass fun k => ?_
  split
  · exact .sub fun n => .pure
  · exact .part specifiers_lays fun n => .pure
  · exact .pass fun _ => .pure

lemma importRest_steps {mods : Option NodeList} {clause : Option Node}
    (hn : nodesIn mods ++ clause.toList = ns := by simp) :
    Steps R m ns (importRest m.pos mods clause) nodesIn := by
  subst hn
  exact .sub fun source => .sub fun attributes => .pass fun _ => .finish

omit [LaysGoals R] in
lemma importClauseRest_steps {typeOnly : Bool} {name : Option Node}
    (hn : name.toList = ns := by simp) :
    Steps R m ns (importClauseRest m.pos typeOnly name) nodesIn := by
  subst hn
  exact .pass fun b => .perhaps fun bindings => .finish

omit [LaysGoals R] in
instance : Lays R importHead := by
  refine .start fun _ => .pass fun typeOnly => .onlyIf (.askIf (.sub fun name => ?_) ?_)
  · exact .askIf .pure (.bind importClauseRest_steps fun n => .pure)
  · exact .bind importClauseRest_steps fun n => .pure

lemma importDeclaration_steps {mods : Option NodeList} :
    Steps R m (nodesIn mods) (importDeclaration m.pos mods) nodesIn := by
  refine .pass fun _ => .askIf importRest_steps (.sub fun x => ?_)
  obtain ⟨head, _ | typeOnly⟩ := x
  · exact .pass fun _ => importRest_steps
  · exact .sub fun target => .pass fun _ => .finish

/-! ### Exports -/

lemma exportAssignment_steps {mods : Option NodeList} :
    Steps R m (nodesIn mods) (exportAssignment m.pos mods) nodesIn :=
  .pass fun isEquals => .pass fun _ => .sub fun e => .pass fun _ => .finish

omit [LaysGoals R] in
lemma namespaceExportDeclaration_steps :
    Steps R m ns (namespaceExportDeclaration m.pos) nodesIn :=
  .forget [] (.pass fun _ => .pass fun _ => .sub fun name => .pass fun _ => .finish)

instance : Lays R exportSource := .of fun _ => .pass fun _ => .last

instance : Lays R exportClause := by
  refine .lookIf (.start fun _ => .pass fun _ => .askIf ?_ (.sub fun source => .pure))
    (.of fun _ => ?_)
  · exact .sub fun name => .bind .finish fun clause => .sub fun source => .pure
  · exact .part specifiers_lays fun clause => .askIf (.sub fun source => .pure) .pure

lemma exportDeclaration_steps {mods : Option NodeList} :
    Steps R m (nodesIn mods) (exportDeclaration m.pos mods) nodesIn := by
  refine .pass fun typeOnly => .onlyIf (.sub fun x => .perhaps fun attributes => ?_)
  exact .pass fun _ => .finish

lemma exportRest_steps {mods : Option NodeList} :
    Steps R m (nodesIn mods) (exportRest m.pos mods) nodesIn := by
  refine .pass fun k => ?_
  split
  · exact exportAssignment_steps
  · exact exportAssignment_steps
  · exact namespaceExportDeclaration_steps
  · exact exportDeclaration_steps

/-! ### Namespaces -/

instance : Lays R moduleBlock := braced_lays

instance : Lays R moduleBodyOrSemicolon :=
  .of fun _ => .askIf (.sub fun body => .pure) (.pass fun _ => .pure)

lemma namespaceRest_steps {mods : Option NodeList} {flags : NodeFlags}
    (hn : nodesIn mods = ns := by simp) :
    Steps R m ns (namespaceRest m.pos mods flags) nodesIn := by
  subst hn
  exact .sub fun name => .pass fun b => .choose fun body => .finish

instance (namespaceWord : Bool) : Lays R (innerNamespace namespaceWord) :=
  .start fun _ => namespaceRest_steps

lemma moduleDeclaration_steps {mods : Option NodeList} :
    Steps R m (nodesIn mods) (moduleDeclaration m.pos mods) nodesIn := by
  refine .pass fun opening => .ite (.sub fun name => .sub fun body => .finish) (.pass fun _ => ?_)
  exact .askIf (.sub fun name => .sub fun body => .finish) namespaceRest_steps

/-! ### Declarations -/

instance : Lays R variableDeclaration := by
  refine .start fun _ => .sub fun name => .pass fun b => .perhaps fun exclamation => ?_
  exact .sub fun type => .sub fun value => .finish

instance : Lays R variableDeclarationList := by
  refine .start fun _ => .pass fun opening => .onlyIf (.pass fun _ => .pass fun start => ?_)
  exact .sub fun list => .listFrom fun _ => .finish

lemma variableStatement_steps {mods : Option NodeList} (hn : nodesIn mods = ns := by simp) :
    Steps R m ns (variableStatement m.pos mods) nodesIn := by
  subst hn
  exact .sub fun list => .pass fun _ => .finish

lemma functionDeclaration_steps {mods : Option NodeList} (hn : nodesIn mods = ns := by simp) :
    Steps R m ns (functionDeclaration m.pos mods) nodesIn := by
  subst hn
  refine .pass fun _ => .sub fun asterisk => .pass fun nameless => ?_
  exact .ite (.pureThen (.sub fun parts => .finish)) (.sub fun name => .sub fun parts => .finish)

lemma interfaceDeclaration_steps {mods : Option NodeList} :
    Steps R m (nodesIn mods) (interfaceDeclaration m.pos mods) nodesIn := by
  refine .pass fun _ => .sub fun name => .sub fun typeParams => .sub fun heritage => ?_
  exact .sub fun members => .finish

lemma typeAliasDeclaration_steps {mods : Option NodeList} :
    Steps R m (nodesIn mods) (typeAliasDeclaration m.pos mods) nodesIn := by
  refine .pass fun _ => .sub fun name => .sub fun typeParams => .pass fun _ => ?_
  exact .sub fun type => .pass fun _ => .finish

instance : Lays R enumMember := .start fun _ => .sub fun name => .sub fun value => .finish

lemma enumDeclaration_steps {mods : Option NodeList} :
    Steps R m (nodesIn mods) (enumDeclaration m.pos mods) nodesIn :=
  .pass fun _ => .sub fun name => .sub fun members => .finish

lemma declarationRest_steps {mods : Option NodeList} :
    Steps R m (nodesIn mods) (declarationRest m.pos mods) nodesIn := by
  refine .pass fun k => ?_
  split
  iterate 5 exact variableStatement_steps
  · exact functionDeclaration_steps
  · exact classLike_steps
  · exact interfaceDeclaration_steps
  · exact typeAliasDeclaration_steps
  · exact enumDeclaration_steps
  iterate 3 exact moduleDeclaration_steps
  · exact importDeclaration_steps
  · exact .pass fun _ => exportRest_steps
  · exact .pass fun _ => .finish (by decide) (by cases mods <;> simp)

instance : Lays R declaration := .start fun _ => .sub fun _ => declarationRest_steps

/-! ### Statements -/

instance : Lays R expressionOrLabeled := by
  refine .start fun _ => .pass fun startsWithName => .sub fun e => ?_
  refine .askIf ?_ (.pass fun _ => .finish)
  exact .sub fun body => .finish

instance : Lays R condition := .of fun _ => .pass fun _ => .sub fun e => .pass fun _ => .pure

instance : Lays R ifStatement := by
  refine .start fun _ => .pass fun _ => .sub fun e => .sub fun whenTrue => .pass fun b => ?_
  exact .perhaps fun whenFalse => .finish

instance : Lays R doStatement := by
  refine .start fun _ => .pass fun _ => .sub fun body => .pass fun _ => .sub fun e => ?_
  exact .pass fun _ => .finish

instance : Lays R whileStatement :=
  .start fun _ => .pass fun _ => .sub fun e => .sub fun body => .finish

instance (stops : List TokenKind) : Lays R (expressionUnless stops) :=
  .of fun _ => .askIf .pure (.sub fun e => .pure)

section Loops

variable {await head : Option Node}

lemma forEach_steps {isOf : Bool} (hn : await.toList ++ head.toList = ns := by simp) :
    Steps R m ns (forEach m.pos await head isOf) nodesIn := by
  subst hn
  exact .choose fun e => .pass fun _ => .sub fun body => .finish (by split <;> decide)

lemma forClauses_steps (hn : head.toList = ns := by simp) :
    Steps R m ns (forClauses m.pos head) nodesIn := by
  subst hn
  refine .pass fun _ => .sub fun e => .pass fun _ => .sub fun step => .pass fun _ => ?_
  exact .sub fun body => .finish

lemma forRest_steps (hn : await.toList ++ head.toList = ns := by simp) :
    Steps R m ns (forRest m.pos await head) nodesIn := by
  subst hn
  have rest (isOf : Bool) : Steps R m (await.toList ++ head.toList)
      (do if ← (return isOf) <||> accept .inKw then forEach m.pos await head isOf
          else forClauses m.pos head) nodesIn :=
    .askIf forEach_steps (.forget head.toList forClauses_steps)
  exact .ite (.pass rest) (.pass rest)

end Loops

instance : Lays R forHead := .look fun _ => .inContext (.ite inferInstance inferInstance)

instance : Lays R forStatement := by
  refine .start fun _ => .pass fun _ => .sub fun await => .pass fun _ => .askIf forRest_steps ?_
  exact .sub fun head => forRest_steps

omit [LaysGoals R] in
lemma jump_lays {form : Form} (hform : form ≠ .expressionWithTypeArguments := by decide) :
    Lays R (jump form) := by
  refine .start fun _ => .pass fun _ => .pass fun labeled => .perhaps fun label => ?_
  exact .pass fun _ => .finish hform

instance : Lays R returnStatement := by
  refine .start fun _ => .pass fun _ => .askIf (.pureThen (.pass fun _ => .finish)) ?_
  exact .sub fun e => .pass fun _ => .finish

instance : Lays R withStatement :=
  .start fun _ => .pass fun _ => .sub fun e => .sub fun body => .finish

lemma clauseBody_steps {form : Form} {e : Option Node}
    (hform : form ≠ .expressionWithTypeArguments := by decide) (hn : e.toList = ns := by simp) :
    Steps R m ns (clauseBody form m.pos e) nodesIn := by
  subst hn
  exact .pass fun _ => .sub fun statements => .finish hform

instance : Lays R clause := by
  refine .start fun _ => .askIf (.sub fun e => .bind clauseBody_steps fun n => .pure) ?_
  exact .askIf (.bind clauseBody_steps fun n => .pure) (.pass fun _ => .pure)

instance : Lays R caseBlock :=
  .start fun _ => .pass fun _ => .sub fun clauses => .pass fun _ => .finish

instance : Lays R switchStatement :=
  .start fun _ => .pass fun _ => .sub fun e => .sub fun cases => .finish

instance : Lays R throwStatement := by
  refine .start fun _ => .pass fun _ => .askIf ?_ (.sub fun e => .pass fun _ => .finish)
  exact .pass fun _ => .sub fun e => .pass fun _ => .finish

instance : Lays R caughtVariable := by
  refine .start fun _ => .sub fun name => .sub fun type => .bind .finish fun bound => ?_
  exact .pass fun _ => .pure

instance : Lays R catchClause := by
  refine .start fun _ => .pass fun _ => .pass fun b => .perhaps fun bound => ?_
  exact .sub fun body => .finish

instance : Lays R tryStatement := by
  refine .start fun _ => .pass fun _ => .sub fun tried => .pass fun b => .perhaps fun caught => ?_
  refine .pass fun b => .ite (.pass fun _ => .sub fun final => .finish) ?_
  exact .pureThen .finish

instance : Lays R anyStatement := by
  refine .start fun _ => .pass fun k => ?_
  split
  · exact .pass fun _ => .finish
  · exact .last
  · exact variableStatement_steps
  iterate 3 exact .askIf variableStatement_steps .last
  · exact functionDeclaration_steps
  · exact classLike_steps
  iterate 4 exact .last
  iterate 2 exact .lastPart jump_lays
  iterate 5 exact .last
  · exact .pass fun _ => .pass fun _ => .finish
  · exact .last
  · exact .pass fun k => .ite .last (.askIf .last .last)
  iterate 17 exact .askIf .last .last
  · exact .last

instance : Lays R statement :=
  .nest (.of fun _ => .pass fun _ => .pure) inferInstance

/-! ### The parse as a whole -/

/-- Every rule lays out its node where the rules in it do. -/
theorem rule_lays (g : Goal) : Lays R (rule g) := by
  cases g with
  | statement => exact inferInstanceAs (Lays R statement)
  | assignment returnType => exact inferInstanceAs (Lays R (some <$> assignment returnType))
  | binary above => exact inferInstanceAs (Lays R (some <$> binary above))
  | simpleUnary => exact inferInstanceAs (Lays R (some <$> simpleUnary))
  | leftHandSide => exact inferInstanceAs (Lays R (some <$> leftHandSide))
  | primary => exact inferInstanceAs (Lays R (some <$> primary))
  | element inExpression => exact inferInstanceAs (Lays R (some <$> element inExpression))
  | type => exact inferInstanceAs (Lays R (some <$> type))
  | typeOperator => exact inferInstanceAs (Lays R (some <$> typeOperator))
  | binding => exact inferInstanceAs (Lays R (some <$> binding))
  | innerNamespace word => exact inferInstanceAs (Lays R (some <$> innerNamespace word))

omit [LaysGoals R] in
theorem laysGoals_runner (fuel : Nat) (remembers : Bool) : LaysGoals (runner fuel remembers) := by
  induction fuel with
  | zero =>
    have h : Lays .idle tooDeep := .of fun _ => .pass fun _ => .pure
    exact ⟨fun _ => ⟨h.lays⟩⟩
  | succ fuel ih => exact ⟨fun g => ⟨(rule_lays (R := runner fuel remembers) g).lays⟩⟩

end EstreeLint.Grammar
