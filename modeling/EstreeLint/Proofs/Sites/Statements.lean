import EstreeLint.Proofs.Grammar.Statements
import EstreeLint.Proofs.Sites.Elements

/-!
What the rules for modules, declarations and statements anchor, and the parse as a whole.
-/

namespace EstreeLint.Grammar

open Parse
open Text (IsCut)

variable {text : Source} {clean : Prop} {R : Runner} {q : Nat} {mods : Option NodeList}
  [FrontGoals R] [SitesGoals text clean R]

/-! ### Imports -/

instance : Sites text clean R moduleSpecifier (Sited text clean) :=
  .lookIf inferInstance (.of (.pass fun _ => .last))

instance : Sites text clean R importAttributes? (IfAny (Sited text clean)) :=
  .of (.askIf (.found .last) (.pure ifAny_none))

omit [FrontGoals R] [SitesGoals text clean R] in
lemma specifiers_sites {form each : Form} (hform : form ∉ specialForms := by decide)
    (heach : each ∉ specialForms := by decide) :
    Sites text clean R (specifiers form each) (Sited text clean) := by
  have : Sites text clean R (specifier each) (Sited text clean) := by
    refine .start fun _ hq => .pass fun typeOnly => .onlyIf (.sub fun first hfirst => .askIf ?_ ?_)
    · exact .sub fun name hn => .finish hq (by simp [*, askingRoles]) heach
    · exact .finish hq (by simp [*, askingRoles]) heach
  exact .start fun _ hq => .enclosed fun list hl _ => .finish hq (by simp [*, askingRoles]) hform

omit [FrontGoals R] [SitesGoals text clean R] in
instance : Sites text clean R namespaceImport (Sited text clean) :=
  .start fun _ hq => .pass fun _ => .pass fun _ => .sub fun name hn => .finish hq

instance : Sites text clean R moduleReference (Sited text clean) := by
  refine .lookIf (.start fun _ hq => .pass fun _ => .pass fun _ => ?_) inferInstance
  exact .sub fun e he => .pass fun _ => .finish hq

omit [FrontGoals R] [SitesGoals text clean R] in
instance : Sites text clean R namedBindings (IfAny (Sited text clean)) := by
  refine .of (.pass fun k => ?_)
  split
  · exact .found .last
  · exact .found (specifiers_sites (by decide) (by decide)).keeps
  · exact .pass fun _ => .pure ifAny_none

section Imports

variable (hm : IfAny (SitedList text clean) mods) (hq : IsCut text q)

include hq

omit [FrontGoals R] [SitesGoals text clean R] in
lemma importClauseRest_keeps {typeOnly : Bool} {name : Option Node}
    (hn : IfAny (Sited text clean) name) :
    Keeps text clean R (fun _ => True) (importClauseRest q typeOnly name) (Sited text clean) :=
  .pass fun b => .perhaps fun bindings hb => .finish hq

include hm

omit [FrontGoals R] in
lemma importRest_keeps {clause : Option Node} (hc : IfAny (Sited text clean) clause) :
    Keeps text clean R (fun _ => True) (importRest q mods clause) (Sited text clean) :=
  .sub fun source hs => .sub fun attributes ha => .pass fun _ => .finish hq

end Imports

omit [FrontGoals R] [SitesGoals text clean R] in
instance : Sites text clean R importHead fun x => Sited text clean x.1 := by
  refine .start fun _ hq => .pass fun typeOnly => .onlyIf (.askIf (.sub fun name hn => ?_) ?_)
  · refine .askIf (.pure hn) (.bind (importClauseRest_keeps hq (ifAny_some.2 hn)) fun n hn => ?_)
    exact .pure hn
  · exact .bind (importClauseRest_keeps hq ifAny_none) fun n hn => .pure hn

omit [FrontGoals R] in
lemma importDeclaration_keeps (hm : IfAny (SitedList text clean) mods) (hq : IsCut text q) :
    Keeps text clean R (fun _ => True) (importDeclaration q mods) (Sited text clean) := by
  refine .pass fun _ => .askIf (importRest_keeps hm hq ifAny_none) (.sub fun x hx => ?_)
  obtain ⟨head, _ | typeOnly⟩ := x
  · exact .pass fun _ => importRest_keeps hm hq (ifAny_some.2 hx)
  · exact .sub fun target ht => .pass fun _ => .finish hq

/-! ### Exports -/

instance : Sites text clean R exportSource (Sited text clean) := .of (.pass fun _ => .last)

instance : Sites text clean R exportClause
    fun x => IfAny (Sited text clean) x.1 ∧ IfAny (Sited text clean) x.2 := by
  refine .lookIf (.start fun _ hq => .pass fun _ => .askIf ?_ (.sub fun source hs => ?_)) (.of ?_)
  · refine .sub fun name hn => .bind (.finish hq) fun clause hc => .sub fun source hs => ?_
    exact .pure ⟨ifAny_some.2 hc, ifAny_some.2 hs⟩
  · exact .pure ⟨ifAny_none, ifAny_some.2 hs⟩
  · refine .bind (specifiers_sites (by decide) (by decide)).keeps fun clause hc => .askIf ?_ ?_
    · exact .sub fun source hs => .pure ⟨ifAny_some.2 hc, ifAny_some.2 hs⟩
    · exact .pure ⟨ifAny_some.2 hc, ifAny_none⟩

section Exports

variable (hm : IfAny (SitedList text clean) mods) (hq : IsCut text q)

include hm hq

omit [FrontGoals R]

lemma exportAssignment_keeps :
    Keeps text clean R (fun _ => True) (exportAssignment q mods) (Sited text clean) :=
  .pass fun isEquals => .pass fun _ => .sub fun e he => .pass fun _ => .finish hq

omit [SitesGoals text clean R] hm in
lemma namespaceExportDeclaration_keeps :
    Keeps text clean R (fun _ => True) (namespaceExportDeclaration q) (Sited text clean) :=
  .pass fun _ => .pass fun _ => .sub fun name hn => .pass fun _ => .finish hq

lemma exportDeclaration_keeps :
    Keeps text clean R (fun _ => True) (exportDeclaration q mods) (Sited text clean) := by
  refine .pass fun typeOnly => .onlyIf (.sub fun x hx => .perhaps fun attributes ha => ?_)
  exact .pass fun _ => .finish hq

lemma exportRest_keeps :
    Keeps text clean R (fun _ => True) (exportRest q mods) (Sited text clean) := by
  refine .pass fun k => ?_
  split
  · exact exportAssignment_keeps hm hq
  · exact exportAssignment_keeps hm hq
  · exact namespaceExportDeclaration_keeps hq
  · exact exportDeclaration_keeps hm hq

end Exports

/-! ### Namespaces -/

instance : Sites text clean R moduleBlock (Sited text clean) := braced_sites

instance : Sites text clean R moduleBodyOrSemicolon (IfAny (Sited text clean)) :=
  .of (.askIf (.found .last) (.pass fun _ => .pure ifAny_none))

omit [FrontGoals R] in
lemma namespaceRest_keeps {flags : NodeFlags} (hm : IfAny (SitedList text clean) mods)
    (hq : IsCut text q) :
    Keeps text clean R (fun _ => True) (namespaceRest q mods flags) (Sited text clean) :=
  .sub fun name hn => .pass fun b => .choose fun body hb => .finish hq

instance (namespaceWord : Bool) :
    Sites text clean R (innerNamespace namespaceWord) (Sited text clean) :=
  .start fun _ hq => namespaceRest_keeps ifAny_none hq

omit [FrontGoals R] in
lemma moduleDeclaration_keeps (hm : IfAny (SitedList text clean) mods) (hq : IsCut text q) :
    Keeps text clean R (fun _ => True) (moduleDeclaration q mods) (Sited text clean) := by
  refine .pass fun opening => .ite (.sub fun name hn => .sub fun body hb => .finish hq) ?_
  refine .pass fun _ => .askIf ?_ (namespaceRest_keeps hm hq)
  exact .sub fun name hn => .sub fun body hb => .finish hq

/-! ### Declarations -/

instance : Sites text clean R variableDeclaration (Sited text clean) := by
  refine .start fun _ hq => .subBinding fun name hn hb => .pass fun b => ?_
  refine .perhaps fun exclamation he => .sub fun type ht => .sub fun value hv => ?_
  exact .finishNamed (by simp) hb hq

instance : Sites text clean R variableDeclarationList (Sited text clean) := by
  refine .start fun _ hq => .pass fun opening => .onlyIf (.pass fun _ => .pass fun start => ?_)
  exact .sub fun list hl => .listFrom hl fun l hl => .finish hq

instance : Sites text clean R enumMember (Sited text clean) :=
  .start fun _ hq => .sub fun name hn => .sub fun value hv => .finish hq

section Declarations

variable (hm : IfAny (SitedList text clean) mods) (hq : IsCut text q)

include hm hq

lemma variableStatement_keeps :
    Keeps text clean R (fun _ => True) (variableStatement q mods) (Sited text clean) :=
  .sub fun list hl => .pass fun _ => .finish hq

lemma functionDeclaration_keeps :
    Keeps text clean R (fun _ => True) (functionDeclaration q mods) (Sited text clean) := by
  refine .pass fun _ => .sub fun asterisk ha => .pass fun nameless => .ite ?_ ?_
  · refine .pureThen (.sub fun parts hp => ?_)
    have := hp .functionDeclaration (by decide)
    exact .finish hq
  · refine .sub fun name hn => .sub fun parts hp => ?_
    have := hp .functionDeclaration (by decide)
    exact .finish hq

lemma interfaceDeclaration_keeps :
    Keeps text clean R (fun _ => True) (interfaceDeclaration q mods) (Sited text clean) := by
  refine .pass fun _ => .sub fun name hn => .sub fun typeParams hp => .sub fun heritage hh => ?_
  exact .sub fun members hl => .finish hq

omit [FrontGoals R] in
lemma typeAliasDeclaration_keeps :
    Keeps text clean R (fun _ => True) (typeAliasDeclaration q mods) (Sited text clean) := by
  refine .pass fun _ => .sub fun name hn => .sub fun typeParams hp => .pass fun _ => ?_
  exact .sub fun type ht => .pass fun _ => .finish hq

omit [FrontGoals R] in
lemma enumDeclaration_keeps :
    Keeps text clean R (fun _ => True) (enumDeclaration q mods) (Sited text clean) :=
  .pass fun _ => .sub fun name hn => .enclosed fun members hl ho => .finish hq

lemma declarationRest_keeps :
    Keeps text clean R (fun _ => True) (declarationRest q mods) (Sited text clean) := by
  refine .pass fun k => ?_
  split
  iterate 5 exact variableStatement_keeps hm hq
  · exact functionDeclaration_keeps hm hq
  · exact classLike_keeps hm hq
  · exact interfaceDeclaration_keeps hm hq
  · exact typeAliasDeclaration_keeps hm hq
  · exact enumDeclaration_keeps hm hq
  iterate 3 exact moduleDeclaration_keeps hm hq
  · exact importDeclaration_keeps hm hq
  · exact .pass fun _ => exportRest_keeps hm hq
  · have helements : SitedList text clean (mods.getD ⟨[], { pos := q, stop := q }⟩) := by
      cases mods with
      | none => exact ⟨by simp, hq⟩
      | some l => exact ifAny_some.1 hm
    exact .pass fun _ => .finish hq

end Declarations

instance : Sites text clean R declaration (Sited text clean) :=
  .start fun _ hq => .sub fun _ hm => declarationRest_keeps hm hq

/-! ### Statements -/

instance : Sites text clean R expressionOrLabeled (Sited text clean) := by
  refine .start fun _ hq => .pass fun startsWithName => .sub fun e he => .askIf ?_ ?_
  · exact .sub fun body hb => .finish hq
  · exact .pass fun _ => .finish hq

instance : Sites text clean R condition (Sited text clean) :=
  .of (.pass fun _ => .sub fun _ he => .pass fun _ => .pure he)

instance : Sites text clean R ifStatement (Sited text clean) := by
  refine .start fun _ hq => .pass fun _ => .sub fun e he => .sub fun whenTrue ht => ?_
  exact .pass fun b => .perhaps fun whenFalse hf => .finish hq

instance : Sites text clean R doStatement (Sited text clean) := by
  refine .start fun _ hq => .pass fun _ => .sub fun body hb => .pass fun _ => ?_
  exact .sub fun e he => .pass fun _ => .finish hq

instance : Sites text clean R whileStatement (Sited text clean) :=
  .start fun _ hq => .pass fun _ => .sub fun e he => .sub fun body hb => .finish hq

instance (stops : List TokenKind) :
    Sites text clean R (expressionUnless stops) (IfAny (Sited text clean)) :=
  .of (.askIf (.pure ifAny_none) (.found .last))

section Loops

variable {await head : Option Node} (ha : IfAny (Sited text clean) await)
  (hh : IfAny (Sited text clean) head) (hq : IsCut text q)

include hh hq

omit [FrontGoals R] in
lemma forClauses_keeps :
    Keeps text clean R (fun _ => True) (forClauses q head) (Sited text clean) := by
  refine .pass fun _ => .sub fun e he => .pass fun _ => .sub fun step hs => .pass fun _ => ?_
  exact .sub fun body hb => .finish hq

include ha

omit [FrontGoals R] in
lemma forEach_keeps {isOf : Bool} :
    Keeps text clean R (fun _ => True) (forEach q await head isOf) (Sited text clean) := by
  refine .choose fun e he => .pass fun _ => .sub fun body hb => .finish hq ?_ ?_
  · simp [*, askingRoles]
  · split <;> decide

omit [FrontGoals R] in
lemma forRest_keeps :
    Keeps text clean R (fun _ => True) (forRest q await head) (Sited text clean) := by
  have rest (isOf : Bool) : Keeps text clean R (fun _ => True)
      (do if ← (return isOf) <||> accept .inKw then forEach q await head isOf
          else forClauses q head) (Sited text clean) :=
    .askIf (forEach_keeps ha hh hq) (forClauses_keeps hh hq)
  exact .ite (.pass rest) (.pass rest)

end Loops

instance : Sites text clean R forHead (Sited text clean) :=
  .look fun _ => .inContext (.ite inferInstance inferInstance)

instance : Sites text clean R forStatement (Sited text clean) := by
  refine .start fun _ hq => .pass fun _ => .sub fun await ha => .pass fun _ => ?_
  refine .askIf (forRest_keeps ha ifAny_none hq) (.sub fun head hh => ?_)
  exact forRest_keeps ha (ifAny_some.2 hh) hq

omit [FrontGoals R] [SitesGoals text clean R] in
lemma jump_sites {form : Form} (hform : form ∉ specialForms := by decide) :
    Sites text clean R (jump form) (Sited text clean) := by
  refine .start fun _ hq => .pass fun _ => .pass fun labeled => .perhaps fun label hl => ?_
  exact .pass fun _ => .finish hq (by simp [*, askingRoles]) hform

instance : Sites text clean R returnStatement (Sited text clean) := by
  refine .start fun _ hq => .pass fun _ => .askIf (.pureThen (.pass fun _ => .finish hq)) ?_
  exact .sub fun e he => .pass fun _ => .finish hq

instance : Sites text clean R withStatement (Sited text clean) :=
  .start fun _ hq => .pass fun _ => .sub fun e he => .sub fun body hb => .finish hq

omit [FrontGoals R] in
lemma clauseBody_keeps {form : Form} {e : Option Node} (he : IfAny (Sited text clean) e)
    (hq : IsCut text q) (hform : form ∉ specialForms := by decide) :
    Keeps text clean R (fun _ => True) (clauseBody form q e) (Sited text clean) :=
  .pass fun _ => .sub fun statements hs => .finish hq (by simp [*, askingRoles]) hform

instance : Sites text clean R clause (IfAny (Sited text clean)) := by
  refine .start fun _ hq => .askIf (.sub fun e he => ?_) (.askIf ?_ ?_)
  · exact .found (clauseBody_keeps (ifAny_some.2 he) hq)
  · exact .found (clauseBody_keeps ifAny_none hq)
  · exact .pass fun _ => .pure ifAny_none

instance : Sites text clean R caseBlock (Sited text clean) :=
  .start fun _ hq => .pass fun _ => .sub fun clauses hc => .pass fun _ => .finish hq

instance : Sites text clean R switchStatement (Sited text clean) :=
  .start fun _ hq => .pass fun _ => .sub fun e he => .sub fun cases hc => .finish hq

instance : Sites text clean R throwStatement (Sited text clean) := by
  refine .start fun _ hq => .pass fun _ => .askIf ?_ (.sub fun e he => .pass fun _ => .finish hq)
  exact .pass fun _ => .sub fun e he => .pass fun _ => .finish hq

instance : Sites text clean R caughtVariable
    fun n => Sited text clean n ∧ n.isForm .variableDeclaration = true := by
  refine .start fun _ hq => .subBinding fun name hn hb => .sub fun type ht => ?_
  exact .bind (.ofForm (.finishNamed (by simp) hb hq)) fun bound h => .pass fun _ => .pure h

instance : Sites text clean R catchClause (Sited text clean) := by
  refine .start fun _ hq => .pass fun _ => .pass fun b => ?_
  refine .perhaps (P := fun n => Sited text clean n ∧ n.isForm .variableDeclaration = true)
    fun bound hb => .sub fun body hbody => .finish hq ?_
  have hrole : IfAny (RoleFits text clean (.form .catchClause) .variableDeclaration) bound :=
    (ifAny_and.1 hb).2
  simp [(ifAny_and.1 hb).1, hrole, hbody, askingRoles]

instance : Sites text clean R tryStatement (Sited text clean) := by
  refine .start fun _ hq => .pass fun _ => .sub fun tried ht => .pass fun b => ?_
  refine .perhaps fun caught hc => .pass fun b => .ite ?_ (.pureThen (.finish hq))
  exact .pass fun _ => .sub fun final hf => .finish hq

instance : Sites text clean R anyStatement (Sited text clean) := by
  refine .start fun _ hq => .pass fun k => ?_
  split
  · exact .pass fun _ => .finish hq
  · exact .last
  · exact variableStatement_keeps ifAny_none hq
  iterate 3 exact .askIf (variableStatement_keeps ifAny_none hq) .last
  · exact functionDeclaration_keeps ifAny_none hq
  · exact classLike_keeps ifAny_none hq
  iterate 4 exact .last
  iterate 2 exact (jump_sites (by decide)).keeps
  iterate 5 exact .last
  · exact .pass fun _ => .pass fun _ => .finish hq
  · exact .last
  · exact .pass fun k => .ite .last (.askIf .last .last)
  iterate 17 exact .askIf .last .last
  · exact .last

instance : Sites text clean R statement (IfAny (Sited text clean)) :=
  .nest (.of (.pass fun _ => .pure ifAny_none)) inferInstance

/-! ### The parse as a whole -/

/-- Every rule anchors its node where the rules in it do. -/
theorem rule_sites (g : Goal) : Sites text clean R (rule g) (IfAny (Sited text clean)) := by
  cases g with
  | statement => exact inferInstanceAs (Sites text clean R statement _)
  | assignment returnType =>
    exact inferInstanceAs (Sites text clean R (some <$> assignment returnType) _)
  | binary above => exact inferInstanceAs (Sites text clean R (some <$> binary above) _)
  | simpleUnary => exact inferInstanceAs (Sites text clean R (some <$> simpleUnary) _)
  | leftHandSide => exact inferInstanceAs (Sites text clean R (some <$> leftHandSide) _)
  | primary => exact inferInstanceAs (Sites text clean R (some <$> primary) _)
  | element inExpression =>
    exact inferInstanceAs (Sites text clean R (some <$> element inExpression) _)
  | type => exact inferInstanceAs (Sites text clean R (some <$> type) _)
  | typeOperator => exact inferInstanceAs (Sites text clean R (some <$> typeOperator) _)
  | binding => exact inferInstanceAs (Sites text clean R (some <$> binding) _)
  | innerNamespace word =>
    exact inferInstanceAs (Sites text clean R (some <$> innerNamespace word) _)

omit [FrontGoals R] [SitesGoals text clean R] in
theorem sitesGoals_runner (fuel : Nat) (remembers : Bool) :
    SitesGoals text clean (runner fuel remembers) := by
  induction fuel with
  | zero =>
    have h : Sites text clean .idle tooDeep (IfAny (Sited text clean)) :=
      .of (.pass fun _ => .pure ifAny_none)
    exact ⟨fun _ => ⟨h.keeps⟩⟩
  | succ fuel ih =>
    have := frontGoals_runner fuel remembers
    exact ⟨fun g => ⟨(rule_sites (R := runner fuel remembers) g).keeps⟩⟩

omit [FrontGoals R] in
lemma sourceFile_sites : Sites text clean R sourceFile (Sited text clean) := by
  refine .of (.sub fun statements hl s hs _ _ => ⟨hs, ?_⟩)
  have hstop : IsCut text (Text.bytes s.scanner.source) := hs.source ▸ Text.isCut_bytes text
  exact sited_ofParts (Text.isCut_zero text) hstop (by simp [*, askingRoles]) (by simp) (by simp)

/-- **The tree of a text is anchored in it**, the more so where no error has been reported. -/
theorem parseSource_sited (source : Source) (variant : Variant) (remembers : Bool) :
    Sited source ((parseSource source variant remembers).2.errors = [])
      (parseSource source variant remembers).1 := by
  have hclear : (State.ofSource source variant).scanner.Clear source :=
    (Scanner.scan_clear (σ := .ofSource source variant true) rfl rfl (Cursor.cuts_front source)).1
  have whole (clean : Prop) : Sites source clean (runner (fuelFor (Text.bytes source)) remembers)
      sourceFile (Sited source clean) := by
    have := @sitesGoals_runner source clean (fuelFor (Text.bytes source)) remembers
    exact sourceFile_sites
  exact ((whole _).keeps _ hclear trivial fun h => h).2

end EstreeLint.Grammar
