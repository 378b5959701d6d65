import EstreeLint.Grammar.Module
import EstreeLint.Proofs.Grammar.Expressions

/-!
What the rules for imports, exports and namespaces build.
-/

namespace EstreeLint.Grammar

open Parse
open Estree (Usable IsAttributes IsImportClause IsExport IsModuleBody Chained Supplied
  usable_of_form)

variable {text : Source} {R : Runner} {m : Mark} {ns : List Node} {K : Scanner → Prop}
  {mods : Option NodeList}

section Peeks

instance : Tells atTypeOnlySpecifier fun σ => σ.kind = .typeKw ∧ True := by
  unfold atTypeOnlySpecifier
  infer_instance

instance : Tells atTypeOnlyImport fun σ => σ.kind = .typeKw ∧ True := by
  unfold atTypeOnlyImport
  infer_instance

end Peeks

variable [Reaches text R]

/-! ### Imports -/

omit [Reaches text R] in
instance moduleSpecifier_builds : Builds text R Anywhere moduleSpecifier Usable := by
  refine ⟨fun m => ?_⟩
  exact .askIf (.last (literal_usable [.stringLiteral])) .error

instance importAttributes?_builds :
    Builds text R Anywhere importAttributes? fun o => ∀ n ∈ o, IsAttributes n := by
  refine ⟨fun m => ?_⟩
  refine .askIf (.sub (importAttributes_builds false) (fun n hn => ?_) (by simp; grind)) ?_
  · exact .pure (by simp) (by simpa using hn)
  · exact .pure rfl (by simp)

omit [Reaches text R] in
lemma specifier_builds {form : Form} (hform : form = .importSpecifier ∨ form = .exportSpecifier) :
    Builds text R Anywhere (specifier form) Usable := by
  refine ⟨fun m => ?_⟩
  refine .start (.ask fun typeOnly => .onlyIf (fun _ => next_builds) ?_)
  refine .sub exportedName_builds fun first hfirst => .acceptIf ?_ ?_
  · refine .sub exportedName_builds fun name hname => ?_
    rcases hform with rfl | rfl
    · exact .build
    · exact .build
  · rcases hform with rfl | rfl
    · exact .build
    · exact .build

omit [Reaches text R] in
/-- Specifiers in braces are of an unruled form, but each of them is usable. -/
lemma specifiers_builds {form each : Form} (hform : Estree.isRuled (.form form) = false)
    (heach : each = .importSpecifier ∨ each = .exportSpecifier) :
    Builds text R Anywhere (specifiers form each)
      fun n => n.kind = .form form ∧ ∀ e ∈ n.partsOf .element, Usable e := by
  refine ⟨fun m => ?_⟩
  refine .start (.sub (enclosedList_builds (specifier_builds heach)) fun l hl => ?_)
  refine .finish (Estree.fits_unruled hform) fun id stop => ⟨rfl, ?_⟩
  simpa [Node.partsOf_ofParts] using hl

omit [Reaches text R] in
instance namespaceImport_builds : Builds text R (At .asterisk) namespaceImport
    fun n => n.kind = .form .namespaceImport ∧ Usable n := by
  refine ⟨fun m => ?_⟩
  refine .start (.next (.expect_ (.sub identifier_usable fun name hname => ?_)))
  refine .finish (Estree.fits_of_enough ?_) fun id stop => ⟨rfl, usable_of_form rfl (by decide)⟩
  unfold Estree.enough Estree.wants
  simp_all

omit [Reaches text R] in
instance moduleReference_builds : Builds text R Anywhere moduleReference Usable := by
  refine ⟨fun m => ?_⟩
  refine .askIf (.start (.next (.expect_ ?_))) (.last (entityName_builds _))
  exact .sub moduleSpecifier_builds fun e he => .expect_ .build

omit [Reaches text R] in
instance namedBindings_builds : Builds text R Anywhere namedBindings fun o => ∀ n ∈ o,
    if n.isForm .namespaceImport then Usable n else ∀ e ∈ n.partsOf .element, Usable e := by
  refine ⟨fun m => ?_⟩
  refine .token fun k => ?_
  split
  · refine .sub namespaceImport_builds fun n hn => .pure (by simp) ?_
    simp [Tree.isForm, hn.1, hn.2]
  · refine .sub (specifiers_builds (by decide) (.inl rfl)) fun n hn => .pure (by simp) ?_
    simpa [Tree.isForm, hn.1] using hn.2
  · exact .error

lemma importRest_goes {clause : Option Node} (hclause : ∀ n ∈ clause, IsImportClause n)
    (hn : (mods.map (·.nodes)).getD [] ++ clause.toList = ns := by simp) :
    Goes text R m ns K (importRest m.pos mods clause) nodesIn Usable := by
  subst hn
  refine .sub moduleSpecifier_builds (fun source hsource => ?_) fun _ _ => trivial
  refine .sub importAttributes?_builds fun attributes hattributes =>
    .sub semicolon_builds fun _ _ => ?_
  refine .buildAs (Estree.fits_importDeclaration ?_ ?_ ?_)
  · simpa using hclause
  · simpa using hsource
  · simpa using fun n hn => (hattributes n hn).2

omit [Reaches text R] in
/-- The clause of an import stands for the name in it, if it has one. -/
lemma fits_importClause {typeOnly : Bool} {name bindings : Option Node} {flags : NodeFlags}
    (hname : ∀ n ∈ name, Usable n) :
    Estree.Fits .importClause
      [.data (.flag typeOnly), .one .name name, .one .namedBindings bindings] flags := by
  intro id pos stop h
  cases name with
  | none => simpa [Node.part?_ofParts] using h.named rfl
  | some n =>
    refine Estree.fits_of_enough ?_ id pos stop h
    unfold Estree.enough Estree.wants
    simp_all

omit [Reaches text R] in
lemma importClauseRest_goes {typeOnly : Bool} {name : Option Node} (hname : ∀ n ∈ name, Usable n)
    (hn : name.toList = ns := by simp) :
    Goes text R m ns K (importClauseRest m.pos typeOnly name) nodesIn IsImportClause := by
  subst hn
  refine .sub (.or (.ofPeeks) (accept_builds _)) (fun b _ => ?_) fun _ _ => trivial
  have hnone : Builds text R Anywhere (pure none) fun o : Option Node => ∀ n ∈ o,
      if n.isForm .namespaceImport then Usable n else ∀ e ∈ n.partsOf .element, Usable e :=
    .pure rfl (by simp)
  refine .choose (fun _ => namedBindings_builds) (fun _ => hnone) fun bindings hbindings => ?_
  refine .finish (fits_importClause hname) fun id stop => ⟨fun h => ⟨rfl, fun _ => h, ?_⟩, ?_⟩
  · intro h
    simp [Tree.isForm] at h
  · cases bindings with
    | none => simp [Node.part?_ofParts]
    | some b => simpa [Node.part?_ofParts] using hbindings b rfl

omit [Reaches text R] in
instance importHead_builds : Builds text R Anywhere importHead fun x =>
    match x.2 with
    | some _ => Usable x.1
    | none => IsImportClause x.1 := by
  refine ⟨fun m => ?_⟩
  refine .start (.ask fun typeOnly => .onlyIf (fun _ => next_builds) ?_)
  refine .askIf (.sub identifier_usable fun name hname => .acceptIf ?_ ?_) ?_
  · exact .pure (by simp) hname
  · exact .bind (importClauseRest_goes (by simpa using hname)) fun n hn => .pure (by simp) hn
  · exact .bind (importClauseRest_goes (by simp)) fun n hn => .pure (by simp) hn

lemma importDeclaration_goes (hn : (mods.map (·.nodes)).getD [] = ns := by simp) :
    Goes text R m ns K (importDeclaration m.pos mods) nodesIn Usable := by
  subst hn
  refine .expect_ (.askIf (importRest_goes (by simp)) (.sub importHead_builds ?_))
  rintro ⟨head, _ | typeOnly⟩ hhead
  · exact .expect_ (importRest_goes (by simpa using hhead))
  · refine .sub moduleReference_builds fun target htarget => .sub semicolon_builds fun _ _ => ?_
    exact .build

/-! ### Exports -/

lemma exportAssignment_goes (hK : ∀ σ, K σ → σ.kind ≠ .endOfFile := by simp <;> grind)
    (hn : (mods.map (·.nodes)).getD [] = ns := by simp) :
    Goes text R m ns K (exportAssignment m.pos mods) nodesIn Usable := by
  subst hn
  refine .look fun isEquals => .next (.sub (reach_builds _) fun e he => ?_) hK
  exact .sub semicolon_builds fun _ _ => .build

omit [Reaches text R] in
/-- The modifiers before a name for the whole module belong to no node. -/
lemma namespaceExportDeclaration_goes (hK : ∀ σ, K σ → σ.kind ≠ .endOfFile := by simp <;> grind) :
    Goes text R m ns K (namespaceExportDeclaration m.pos) nodesIn Usable := by
  refine .forget [] (.next (.expect_ (.sub identifier_usable fun name hname => ?_)) hK)
  exact .sub semicolon_builds fun _ _ => .build

omit [Reaches text R] in
instance exportSource_builds : Builds text R Anywhere exportSource Usable := by
  refine ⟨fun m => ?_⟩
  exact .expect_ (.tail moduleSpecifier_builds)

omit [Reaches text R] in
instance exportClause_builds : Builds text R Anywhere exportClause fun x => IsExport x.1 x.2 := by
  refine ⟨fun m => ?_⟩
  refine .askIf (.start (.next (.acceptIf ?_ ?_))) ?_
  · refine .sub exportedName_builds fun name hname => ?_
    refine .finishThen (Estree.fits_unruled (by decide)) fun id stop => ?_
    refine .sub exportSource_builds fun source hsource =>
      .pure (by simp) ⟨by simpa using hsource, ?_⟩
    simp [Tree.isForm, Estree.supplied_must, Node.part?_ofParts, hname]
  · exact .sub exportSource_builds fun source hsource =>
      .pure (by simp) ⟨by simpa using hsource, rfl⟩
  · refine .sub (specifiers_builds (by decide) (.inr rfl)) fun clause hclause => ?_
    have hform : clause.isForm .namedExports = true := by simp [Tree.isForm, hclause.1]
    refine .askIf (.sub exportSource_builds fun source hsource => .pure (by simp) ⟨?_, ?_⟩) ?_
    · simpa using hsource
    · simpa [hform] using hclause.2
    · exact .pure (by simp) ⟨by simp, by simpa [hform] using hclause.2⟩

lemma exportDeclaration_goes (hn : (mods.map (·.nodes)).getD [] = ns := by simp) :
    Goes text R m ns K (exportDeclaration m.pos mods) nodesIn Usable := by
  subst hn
  refine .ask fun typeOnly => .onlyIf (fun _ => next_builds) (.sub exportClause_builds ?_)
  rintro ⟨clause, source⟩ hexport
  have hnone : Builds text R Anywhere (pure none) fun o : Option Node => ∀ n ∈ o, IsAttributes n :=
    .pure rfl (by simp)
  refine .choose (fun _ => importAttributes?_builds) (fun _ => hnone)
    fun attributes hattributes => ?_
  refine .sub semicolon_builds fun _ _ => ?_
  refine .buildAs (Estree.fits_exportDeclaration (by simp) (by simp) hexport ?_)
  simpa using fun n hn => (hattributes n hn).2

lemma exportRest_goes (hn : (mods.map (·.nodes)).getD [] = ns := by simp) :
    Goes text R m ns K (exportRest m.pos mods) nodesIn Usable := by
  subst hn
  refine .token fun k => ?_
  split
  · exact exportAssignment_goes
  · exact exportAssignment_goes
  · exact namespaceExportDeclaration_goes
  · exact exportDeclaration_goes

/-! ### Namespaces -/

instance moduleBlock_builds : Builds text R Anywhere moduleBlock IsModuleBody :=
  (braced_builds (.inr rfl)).mono fun _ h => ⟨h.usable, fun hm => by simp [h.not_module] at hm⟩

instance moduleBodyOrSemicolon_builds :
    Builds text R Anywhere moduleBodyOrSemicolon fun o => ∀ n ∈ o, IsModuleBody n := by
  refine ⟨fun m => ?_⟩
  refine .askIf (.sub moduleBlock_builds fun n hn => .pure (by simp) (by simpa using hn)) ?_
  exact .sub semicolon_builds fun _ _ => .pure (by simp) (by simp)

/-- A module with all that it needs, also where a dotted name nests it. -/
abbrev IsModule (n : Node) : Prop := Reached (.innerNamespace false) n

omit [Reaches text R] in
lemma module_goes {name : Node} {body : Option Node} {flags : NodeFlags} (hname : Usable name)
    (hbody : ∀ n ∈ body, IsModuleBody n)
    (hn : (mods.map (·.nodes)).getD [] ++ name :: body.toList = ns := by simp) :
    Goes text R m ns K
      (finish .moduleDeclaration m.pos
        [.optional .modifier mods, .one .name name, .one .body body] flags) nodesIn IsModule := by
  subst hn
  refine .finish (Estree.fits_moduleDeclaration ?_ ?_) fun id stop =>
    ⟨usable_of_form rfl (by decide), ?_, ?_⟩
  · simpa using hname
  · simpa using hbody
  · simp [Estree.supplied_must, Node.part?_ofParts, hname]
  · exact Estree.chained_ofParts (by simpa using hbody) _ _ _ _ _

lemma namespaceRest_goes {flags : NodeFlags} (hn : (mods.map (·.nodes)).getD [] = ns := by simp) :
    Goes text R m ns K (namespaceRest m.pos mods flags) nodesIn IsModule := by
  subst hn
  have hinner : Builds text R Anywhere (reach (.innerNamespace flags.namespaceWord)) IsModuleBody :=
    (reach_reached _).mono fun _ h => ⟨h.1, fun _ => h.2⟩
  refine .sub identifier_usable fun name hname => ?_
  refine .acceptIf (.sub hinner fun body hbody => ?_) (.sub moduleBlock_builds fun body hbody => ?_)
  · exact module_goes hname (by simpa using hbody)
  · exact module_goes hname (by simpa using hbody)

instance innerNamespace_builds (namespaceWord : Bool) :
    Builds text R Anywhere (innerNamespace namespaceWord) IsModule := by
  refine ⟨fun m => ?_⟩
  exact .start namespaceRest_goes

lemma moduleDeclaration_goes (hK : ∀ σ, K σ → σ.kind ≠ .endOfFile := by simp <;> grind)
    (hn : (mods.map (·.nodes)).getD [] = ns := by simp) :
    Goes text R m ns K (moduleDeclaration m.pos mods) nodesIn Usable := by
  subst hn
  refine .look fun opening => .ite (fun _ => ?_) fun _ => .next (.askIf ?_ ?_) hK
  · refine .sub identifierName_usable fun name hname => ?_
    refine .sub moduleBodyOrSemicolon_builds fun body hbody => ?_
    exact (module_goes hname hbody).mono (fun _ h => h) fun _ h => h.1
  · refine .sub (literal_usable [.stringLiteral]) fun name hname => ?_
    refine .sub moduleBodyOrSemicolon_builds fun body hbody => ?_
    exact (module_goes hname hbody).mono (fun _ h => h) fun _ h => h.1
  · exact Goes.mono namespaceRest_goes (fun _ h => h) fun _ h => h.1

end EstreeLint.Grammar
