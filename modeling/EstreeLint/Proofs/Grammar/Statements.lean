import EstreeLint.Grammar.Statement
import EstreeLint.Proofs.Grammar.Elements
import EstreeLint.Proofs.Grammar.Modules
import EstreeLint.Proofs.Grammar.Operations

/-!
What the rules for declarations and statements build, and with that every rule.
-/

namespace EstreeLint.Grammar

open Parse
open Estree (Usable IsCaught Supplied usable_of_form)

variable {α β : Type} {text : Source} {R : Runner} {m : Mark} {ns : List Node}
  {K : Scanner → Prop} {mods : Option NodeList}

section Peeks

instance : Peeks atLetDeclaration := by unfold atLetDeclaration; infer_instance

instance : Peeks atAwaitUsing := by unfold atAwaitUsing; infer_instance

instance : Peeks atDeclaration := by unfold atDeclaration; infer_instance

end Peeks

/-! ### At the end of the text -/

/-- A run from the end of the text reports an error. -/
def FailsAtEnd (R : Runner) (p : Parse α) : Prop :=
  ∀ s, s.scanner.kind = .endOfFile → (p.run R s).2.errors ≠ []

namespace FailsAtEnd

lemma bind {p : Parse α} {f : α → Parse β} (h : FailsAtEnd R p) : FailsAtEnd R (p >>= f) :=
  fun s hs hc => h s hs (clean_of_clean hc)

lemma look {p : Parse α} {f : α → Parse β} [Peeks p] (h : ∀ a, FailsAtEnd R (f a)) :
    FailsAtEnd R (p >>= f) :=
  fun s hs => h _ _ ((congrArg _ (Peeks.scanner_run R s)).trans hs)

lemma identifier : FailsAtEnd R Parse.identifier := by
  intro s hs hc
  unfold Parse.identifier at hc
  rw [run_bind] at hc
  split at hc
  · next h =>
    have hword := Tells.tells R s h
    rw [hs] at hword
    cases hword
  · rw [run_bind] at hc
    split at hc
    · exact absurd (clean_of_clean hc) (Goes.errors_error_ne_nil _)
    · exact absurd (clean_of_clean hc) (Goes.errors_error_ne_nil _)

lemma binding : FailsAtEnd R Grammar.binding := by
  unfold Grammar.binding
  refine look fun start => ?_
  intro s hs
  have hrun : ∀ f : TokenKind → Parse Node, (token >>= f).run R s = (f .endOfFile).run R s := by
    intro f
    rw [← hs]
    rfl
  rw [hrun]
  exact identifier s hs

end FailsAtEnd

/-- Behind the end of the text there is the end again. -/
lemma scan_kind_of_end {σ : Scanner} (h : σ.Sound text) (hk : σ.kind = .endOfFile) :
    σ.scan.kind = .endOfFile := by
  have hrest : σ.cursor.rest = [] := by
    by_contra hne
    have hpos := h.cursor_on.pos_add
    have hbytes := Text.bytes_pos hne
    have hend : σ.cursor.pos = Text.bytes text := (h.ends hk).2
    omega
  rw [Scanner.scan, hrest, Scanner.scanFrom]
  rfl

/-- The token at hand is taken where what follows would fail at the end of the text. -/
lemma Goes.nextBefore {f : Unit → Parse β} {out : β → List Node} {val : β → Prop}
    (hend : FailsAtEnd R (f ())) (hf : Goes text R m ns Anywhere (f ()) out val) :
    Goes text R m ns K (Parse.next >>= f) out val := by
  intro he s hs hk hc
  by_cases h : s.scanner.kind = .endOfFile
  · exact absurd hc (hend _ (scan_kind_of_end hs.sound h))
  · exact Goes.next (K := fun σ => σ.kind ≠ .endOfFile) hf (fun _ h => h) he s hs h hc

variable [Reaches text R]

/-! ### Variables -/

instance variableDeclaration_builds : Builds text R Anywhere variableDeclaration Usable := by
  refine ⟨fun m => ?_⟩
  refine .start (.sub binding_builds fun name hname => ?_)
  refine .askSome (tokenNode_at .exclamation) fun exclamation _ => ?_
  refine .sub declaredType_builds fun type htype => ?_
  exact .sub initializer_builds fun value hvalue => .build

/-- Variables are usable, and so is each of them. -/
structure IsVariables (n : Node) : Prop where
  usable : Usable n
  elements : ∀ e ∈ n.partsOf .element, Usable e

omit [Reaches text R] in
lemma FailsAtEnd.variables : FailsAtEnd R (separated variableDeclaration) :=
  .bind (.look fun _ => .bind .binding)

instance variableDeclarationList_builds :
    Builds text R Anywhere variableDeclarationList IsVariables := by
  refine ⟨fun m => ?_⟩
  refine .start (.token fun k => .onlyIf (fun hk => next_builds ?_) (.nextBefore ?_ ?_))
  · rintro σ ⟨-, rfl⟩ h
    rw [h] at hk
    cases hk
  · exact .look fun listStart => FailsAtEnd.variables.bind
  · refine .look fun listStart => .sub (separated_builds variableDeclaration_builds) ?_
    refine fun elements helements => .listFrom fun span => ?_
    refine .finish (Estree.fits_of_enough ?_) fun id stop => ⟨usable_of_form rfl (by decide), ?_⟩
    · unfold Estree.enough Estree.wants
      simp_all
    · simpa [Node.partsOf_ofParts] using helements

lemma variableStatement_goes (hn : (mods.map (·.nodes)).getD [] = ns := by simp) :
    Goes text R m ns K (variableStatement m.pos mods) nodesIn Usable := by
  subst hn
  refine .sub variableDeclarationList_builds fun list hlist => ?_
  obtain ⟨hlist, helements⟩ := hlist
  exact .sub semicolon_builds fun _ _ => .build

/-! ### Functions and types -/

lemma functionDeclaration_goes (hn : (mods.map (·.nodes)).getD [] = ns := by simp) :
    Goes text R m ns K (functionDeclaration m.pos mods) nodesIn Usable := by
  subst hn
  refine .expect_ (.sub (optionalToken_builds _) fun asterisk _ => ?_)
  refine .look fun nameless =>
    .choose (fun _ => .pure rfl (by simp)) (fun _ => identifier_usable.opt)
    fun name hname => ?_
  refine .sub (.withContext _ _ (signature_builds bodyOrSemicolon_builds)) ?_
  rintro _ ⟨htypeParams, hparams, htype, hbody⟩
  exact .build

lemma interfaceDeclaration_goes (hn : (mods.map (·.nodes)).getD [] = ns := by simp) :
    Goes text R m ns K (interfaceDeclaration m.pos mods) nodesIn Usable := by
  subst hn
  refine .expect_ (.sub identifier_usable fun name hname => ?_)
  refine .sub typeParameters_builds fun typeParams htypeParams => ?_
  refine .sub heritageClauses_builds fun heritage hheritage => ?_
  refine .sub typeMembers_builds fun members hmembers => ?_
  refine .buildAs (Estree.fits_interface ?_ ?_ ?_ ?_)
  · simp_all
  · simpa using htypeParams
  · simpa using hheritage
  · simpa using hmembers

lemma typeAliasDeclaration_goes (hn : (mods.map (·.nodes)).getD [] = ns := by simp) :
    Goes text R m ns K (typeAliasDeclaration m.pos mods) nodesIn Usable := by
  subst hn
  refine .expect_ (.sub identifier_usable fun name hname => ?_)
  refine .sub typeParameters_builds fun typeParams htypeParams => .expect_ ?_
  exact .sub (reach_builds _) fun type htype => .sub semicolon_builds fun _ _ => .build

instance enumMember_builds : Builds text R Anywhere enumMember Usable := by
  refine ⟨fun m => ?_⟩
  refine .start (.sub propertyName_builds fun name hname => ?_)
  exact .sub initializer_builds fun value hvalue => .build

lemma enumDeclaration_goes (hn : (mods.map (·.nodes)).getD [] = ns := by simp) :
    Goes text R m ns K (enumDeclaration m.pos mods) nodesIn Usable := by
  subst hn
  refine .expect_ (.sub identifier_usable fun name hname => ?_)
  exact .sub (enclosedList_builds enumMember_builds) fun members hmembers => .build

/-! ### Declarations -/

lemma declarationRest_goes (hn : (mods.map (·.nodes)).getD [] = ns := by simp) :
    Goes text R m ns K (declarationRest m.pos mods) nodesIn Usable := by
  subst hn
  refine .token fun k => ?_
  split
  iterate 5 exact variableStatement_goes
  · exact functionDeclaration_goes
  · exact classLike_goes (.inl rfl)
  · exact interfaceDeclaration_goes
  · exact typeAliasDeclaration_goes
  · exact enumDeclaration_goes
  iterate 3 exact moduleDeclaration_goes
  · exact importDeclaration_goes
  · exact .next exportRest_goes
  · exact .error

instance declaration_builds : Builds text R Anywhere declaration Usable := by
  refine ⟨fun m => ?_⟩
  exact .start (.sub modifiers_builds fun mods _ => declarationRest_goes)

/-! ### Statements -/

instance expressionOrLabeled_builds : Builds text R Anywhere expressionOrLabeled Usable := by
  refine ⟨fun m => ?_⟩
  refine .start (.look fun startsWithName => .sub expression_builds fun e he => ?_)
  refine .sub (.and .ofPeeks (accept_builds _)) fun labels _ => .ite (fun _ => ?_) fun _ => ?_
  · refine .sub (reach?_builds _) ?_
    rintro _ ⟨body, rfl, hbody⟩
    exact .build
  · exact .sub semicolon_builds fun _ _ => .build

instance condition_builds : Builds text R Anywhere condition Usable := by
  refine ⟨fun m => ?_⟩
  exact .expect_ (.sub expression_builds fun e he => .expect_ (.pure (by simp) he))

instance ifStatement_builds : Builds text R (At .ifKw) ifStatement Usable := by
  refine ⟨fun m => ?_⟩
  refine .start (.next (.sub condition_builds fun e he => .sub (reach?_builds _) ?_))
  rintro _ ⟨whenTrue, rfl, htrue⟩
  have hnone : Builds text R Anywhere (pure none) fun o : Option Node => ∀ n ∈ o, Usable n :=
    .pure rfl (by simp)
  refine .sub (accept_builds _) fun b _ => ?_
  refine .choose (fun _ => reach?_usable _) (fun _ => hnone) fun whenFalse hfalse => ?_
  exact .build

instance doStatement_builds : Builds text R (At .doKw) doStatement Usable := by
  refine ⟨fun m => ?_⟩
  refine .start (.next (.sub (reach?_builds _) ?_))
  rintro _ ⟨body, rfl, hbody⟩
  refine .expect_ (.sub condition_builds fun e he => .sub (accepting_builds _) fun _ _ => ?_)
  exact .build

instance whileStatement_builds : Builds text R (At .whileKw) whileStatement Usable := by
  refine ⟨fun m => ?_⟩
  refine .start (.next (.sub condition_builds fun e he => .sub (reach?_builds _) ?_))
  rintro _ ⟨body, rfl, hbody⟩
  exact .build

instance withStatement_builds : Builds text R (At .withKw) withStatement Usable := by
  refine ⟨fun m => ?_⟩
  refine .start (.next (.sub condition_builds fun e he => .sub (reach?_builds _) ?_))
  rintro _ ⟨body, rfl, hbody⟩
  exact .build

/-! ### Loops -/

instance : Peeks atVariables := by
  unfold atVariables
  refine .andThen fun k => ?_
  split <;> infer_instance

instance expressionUnless_builds (stops : List TokenKind) :
    Builds text R Anywhere (expressionUnless stops) fun o => ∀ n ∈ o, Usable n := by
  refine ⟨fun m => ?_⟩
  refine .askIf (.pure rfl (by simp)) (.sub fullExpression_builds fun e he => ?_)
  exact .pure (by simp) (by simpa using he)

section Loops

variable {await head : Option Node}

lemma forEach_goes {isOf : Bool} {e : Node} (he : Usable e)
    (hn : await.toList ++ [e] = ns := by simp) :
    Goes text R m ns K (forEach m.pos await (some e) isOf) nodesIn Usable := by
  subst hn
  refine .anywhere (.choose (fun _ => .withContext _ _ (reach_builds _))
    (fun _ => fullExpression_builds) fun range hrange => ?_)
  refine .expect_ (.sub (reach?_builds _) ?_)
  rintro _ ⟨body, rfl, hbody⟩
  cases isOf
  · exact .build
  · exact .build

lemma forClauses_goes (hhead : ∀ n ∈ head, Usable n) (hn : head.toList.Sublist ns := by simp) :
    Goes text R m ns K (forClauses m.pos head) nodesIn Usable := by
  refine .forget head.toList (.expect_ (.sub (expressionUnless_builds _) fun e he => ?_)) hn
  refine .expect_ (.sub (expressionUnless_builds _) fun step hstep => ?_)
  refine .expect_ (.sub (reach?_builds _) ?_)
  rintro _ ⟨body, rfl, hbody⟩
  exact .build

lemma forRest_goes {e : Node} (he : Usable e) (hn : await.toList ++ [e] = ns := by simp) :
    Goes text R m ns K (forRest m.pos await (some e)) nodesIn Usable := by
  subst hn
  refine .anywhere (.choose (fun _ => expect_builds .ofKw) (fun _ => accept_builds .ofKw)
    fun isOf _ => ?_)
  refine .sub (.or .ofPeeks (accept_builds _)) fun b _ => .ite (fun _ => ?_) fun _ => ?_
  · exact forEach_goes he
  · exact forClauses_goes (by simpa using he)

/-- Nothing comes before a semicolon but the clauses of a loop. -/
lemma forRest_semicolon (hK : ∀ σ, K σ → σ.kind = .semicolon) (hn : await.toList = ns := by simp) :
    Goes text R m ns K (forRest m.pos await none) nodesIn Usable := by
  subst hn
  cases await with
  | some await =>
    change Goes text R m _ K (expect .ofKw >>= _) nodesIn Usable
    exact .expect_absent fun σ h => by simp [hK σ h]
  | none =>
    change Goes text R m _ K (accept .ofKw >>= _) nodesIn Usable
    refine .accept_missing (fun σ h => by simp [hK σ h]) ?_
    change Goes text R m _ K (accept .inKw >>= _) nodesIn Usable
    refine .accept_missing (fun σ h => by simp [hK σ h]) ?_
    exact forClauses_goes (by simp)

instance forHead_builds : Builds text R Anywhere forHead Usable := by
  have hhead (declares : Bool) : Builds text R Anywhere
      (if declares then variableDeclarationList else expression) Usable := by
    split
    · exact variableDeclarationList_builds.mono fun _ h => h.usable
    · exact expression_builds
  refine ⟨fun m => ?_⟩
  exact .look fun declares => .last (.withContext _ _ (hhead declares))

instance forStatement_builds : Builds text R (At .forKw) forStatement Usable := by
  refine ⟨fun m => ?_⟩
  refine .start (.next (.sub (optionalToken_builds _) fun await _ => .expect_ (.askIf ?_ ?_)))
  · exact forRest_semicolon (by simp)
  · exact .sub forHead_builds fun e he => forRest_goes he

end Loops

/-! ### Jumps -/

omit [Reaches text R] in
lemma jump_builds {form : Form} (hform : form = .continueStatement ∨ form = .breakStatement) :
    Builds text R (fun σ => σ.kind ≠ .endOfFile) (jump form) Usable := by
  refine ⟨fun m => ?_⟩
  refine .start (.next (.look fun labeled => ?_))
  refine .choose (fun _ => identifier_usable.opt) (fun _ => .pure rfl (by simp))
    fun label hlabel => ?_
  refine .sub semicolon_builds fun _ _ => ?_
  rcases hform with rfl | rfl
  · exact .build
  · exact .build

instance returnStatement_builds : Builds text R (At .returnKw) returnStatement Usable := by
  refine ⟨fun m => ?_⟩
  refine .start (.next (.look fun b => ?_))
  refine .choose (fun _ => .pure rfl (by simp)) (fun _ => expression_builds.opt) fun e he => ?_
  exact .sub semicolon_builds fun _ _ => .build

instance throwStatement_builds : Builds text R (At .throwKw) throwStatement Usable := by
  refine ⟨fun m => ?_⟩
  refine .start (.next (.askIf .error (.sub expression_builds fun e he => ?_)))
  exact .sub semicolon_builds fun _ _ => .build

/-! ### Clauses -/

lemma clauseBody_goes {form : Form} {e : Option Node} 
    (hform : form = .caseClause ∨ form = .defaultClause) (he : ∀ n ∈ e, Usable n)
    (hn : e.toList = ns := by simp) :
    Goes text R m ns K (clauseBody form m.pos e) nodesIn Usable := by
  subst hn
  refine .expect_ (.sub (listUntil_builds (reach?_usable _)) fun statements hstatements => ?_)
  rcases hform with rfl | rfl
  · exact .build
  · exact .build

instance clause_builds : Builds text R Anywhere clause fun o => ∀ n ∈ o, Usable n := by
  refine ⟨fun m => ?_⟩
  refine .start (.acceptIf (.sub expression_builds fun e he => ?_) (.acceptIf ?_ .error))
  · refine .bind (clauseBody_goes (.inl rfl) (by simpa using he)) fun n hn => ?_
    exact .pure rfl (by simpa using hn)
  · refine .bind (clauseBody_goes (.inr rfl) (by simp)) fun n hn => ?_
    exact .pure rfl (by simpa using hn)

instance caseBlock_builds :
    Builds text R Anywhere caseBlock fun n => ∀ e ∈ n.partsOf .element, Usable e := by
  refine ⟨fun m => ?_⟩
  refine .start (.expect_ (.sub (listUntil_builds clause_builds) fun clauses hc => .expect_ ?_))
  refine .finish (Estree.fits_unruled (by decide)) fun id stop => ?_
  simpa [Node.partsOf_ofParts] using hc

instance switchStatement_builds : Builds text R (At .switchKw) switchStatement Usable := by
  refine ⟨fun m => ?_⟩
  refine .start (.next (.sub condition_builds fun e he => .sub caseBlock_builds fun cases hc => ?_))
  exact .build

instance caughtVariable_builds : Builds text R Anywhere caughtVariable IsCaught := by
  refine ⟨fun m => ?_⟩
  refine .start (.sub binding_builds fun name hname =>
    .sub declaredType_builds fun type htype => ?_)
  refine .finishThen (Estree.fits_of_enough ?_) fun id stop => .expect_ (.pure rfl ?_)
  · unfold Estree.enough Estree.wants
    simp_all
  · refine ⟨Estree.supplied_must.2 ?_, Estree.supplied_may.2 ?_⟩
    · simp [Node.part?_ofParts, hname]
    · simpa [Node.part?_ofParts] using htype

instance catchClause_builds : Builds text R (At .catchKw) catchClause Usable := by
  refine ⟨fun m => ?_⟩
  refine .start (.next (.acceptSome caughtVariable_builds fun bound hbound => ?_))
  exact .sub block_usable fun body hbody => .buildAs (Estree.fits_catchClause hbound hbody)

instance tryStatement_builds : Builds text R (At .tryKw) tryStatement Usable := by
  refine ⟨fun m => ?_⟩
  refine .start (.next (.sub block_usable fun tried htried => ?_))
  refine .askSome catchClause_builds fun caught hcaught => .look fun b => ?_
  refine .ite (fun _ => .expect_ ?_) fun _ => .pureThen .build
  exact .sub block_usable.opt fun final hfinal => .build

/-! ### Any statement -/

instance anyStatement_builds : Builds text R Anywhere anyStatement Usable := by
  refine ⟨fun m => ?_⟩
  refine .start (.token fun k => ?_)
  split
  · exact .next .build
  · exact .last block_usable
  · exact variableStatement_goes
  iterate 3 exact .askIf variableStatement_goes (.last expressionOrLabeled_builds)
  · exact functionDeclaration_goes
  · exact classLike_goes (.inl rfl)
  · exact .last ifStatement_builds
  · exact .last doStatement_builds
  · exact .last whileStatement_builds
  · exact .last forStatement_builds
  · exact .last (jump_builds (.inl rfl))
  · exact .last (jump_builds (.inr rfl))
  · exact .last returnStatement_builds
  · exact .last withStatement_builds
  · exact .last switchStatement_builds
  · exact .last throwStatement_builds
  · exact .last tryStatement_builds
  · exact .next (.sub semicolon_builds fun _ _ => .build)
  · exact .last declaration_builds
  · refine .look fun k => .ite (fun _ => .last expressionOrLabeled_builds) fun _ => ?_
    exact .askIf (.last declaration_builds) (.last expressionOrLabeled_builds)
  iterate 17 exact .askIf (.last declaration_builds) (.last expressionOrLabeled_builds)
  · exact .last expressionOrLabeled_builds

instance statement_builds :
    Builds text R Anywhere statement fun o => ∃ n, o = some n ∧ Usable n :=
  anyStatement_builds.some.nested

end EstreeLint.Grammar
