import EstreeLint.Proofs.Shapes.Expressions
import EstreeLint.Proofs.Sites.Statements
import EstreeLint.Proofs.Token.Keyword

/-!
What the rules for modules and declarations shape.
-/

namespace EstreeLint.Grammar

open Parse

set_option synthInstance.maxSize 20000

variable {text : Source} {R : Runner} {q start : Nat} {Γ : Prop} {mods : Option NodeList}
  [ShapesGoals text R]

/-! ### Imports -/

instance : Shapes Γ text R q moduleSpecifier := by unfold moduleSpecifier; infer_instance

instance : Shapes Γ text R q importAttributes? := by unfold importAttributes?; infer_instance

section Specifiers

omit [ShapesGoals text R]

/-- A name that may stand under another. Without that it is a word. -/
lemma specifier_shapes {form : Form} (hform : form = .importSpecifier ∨ form = .exportSpecifier) :
    Shapes Γ text R q (specifier form) := by
  have hrest (q : Nat) (typeOnly : Bool) : Shapes Γ text R q (exportedName >>= fun first =>
      accept .asKw >>= fun renamed =>
        if renamed = true then exportedName >>= fun name => finish form q
          [.data (.flag typeOnly), .one .propertyName first, .one .name name]
        else finish form q [.data (.flag typeOnly), .one .name first]) := by
    refine .made inferInstance made_exportedName fun first => .use fun hfirst => ?_
    refine .pass fun renamed => .ite (fun _ => .bind inferInstance fun name => ?_) fun _ => ?_
    · rcases hform with rfl | rfl
      all_goals exact finish_binder rfl (.ofNone fun _ => rfl) (by simp [Part.role?, Part.bare])
    · rcases hform with rfl | rfl
      all_goals
        refine finish_binder rfl (.ofNone fun _ => rfl) fun _ => ?_
        simpa [Part.role?, Part.bare] using hfirst
  exact .start fun q => .pass fun typeOnly =>
    .ite (fun _ => .pass fun _ => hrest q typeOnly) fun _ => hrest q typeOnly

instance : Shapes Γ text R q (specifier .importSpecifier) := specifier_shapes (.inl rfl)

instance : Shapes Γ text R q (specifier .exportSpecifier) := specifier_shapes (.inr rfl)

instance : Shapes Γ text R q (specifiers .namedImports .importSpecifier) :=
    .start fun _ => inferInstance

instance : Shapes Γ text R q (specifiers .namedExports .exportSpecifier) :=
    .start fun _ => inferInstance

end Specifiers

omit [ShapesGoals text R] in
instance : Shapes Γ text R q namespaceImport := .start fun _ => inferInstance

instance : Shapes Γ text R q moduleReference :=
  .pass fun _ => .ite (fun _ => .start fun _ => inferInstance) fun _ => inferInstance

omit [ShapesGoals text R] in
instance : Shapes Γ text R q namedBindings := by
  refine .pass fun k => ?_
  split <;> infer_instance

section Imports

variable {name clause : Option Node} {typeOnly : Bool}

instance [Behind Γ text q mods] [Behind Γ text q clause]
    [Meets Γ (.form .importClause) clause.toList] :
    Shapes Γ text R q (importRest q mods clause) := by
  unfold importRest
  infer_instance

omit [ShapesGoals text R] in
instance [Behind Γ text q name] : Shapes Γ text R q (importClauseRest q typeOnly name) := by
  unfold importClauseRest
  dsimp only
  infer_instance

instance : Free (Option Bool) := .ofTrue _

omit [ShapesGoals text R] in
instance : Shapes Γ text R q importHead := by
  refine .start fun q => .pass fun typeOnly => ?_
  dsimp only
  infer_instance

omit [ShapesGoals text R] in
lemma made_importHead :
    Made R importHead fun x => x.2 = none → Demand.Met (.form .importClause) x.1 := by
  have hclause (start : Nat) (typeOnly : Bool) (name : Option Node) :
      Made R (importClauseRest start typeOnly name >>= fun clause => pure (clause, none))
        fun x : Node × Option Bool => x.2 = none → Demand.Met (.form .importClause) x.1 := by
    have hmade : Made R (importClauseRest start typeOnly name) (Demand.Met (.form .importClause)) :=
      .after fun _ => .ite (.after fun _ => .finish) (.after fun _ => .finish)
    exact hmade.bind fun clause h => .pure fun _ => h
  have hrest (start : Nat) (typeOnly : Bool) : Made R (do
      if ← atIdentifier <&&> return !(← isAt .fromKw <&&> followedBy .stringLiteral) then
        let name ← identifier
        if ← accept .equals then return (name, some typeOnly)
        return (← importClauseRest start typeOnly name, none)
      else return (← importClauseRest start typeOnly none, none))
        fun x : Node × Option Bool => x.2 = none → Demand.Met (.form .importClause) x.1 := by
    refine .after fun b => .ite (.after fun name => .after fun assigned => .ite ?_ ?_) ?_
    · exact .pure nofun
    · exact hclause _ _ _
    · exact hclause _ _ _
  refine .after fun start => .after fun typeOnly => ?_
  exact .ite (.after fun _ => hrest start typeOnly) (hrest start typeOnly)

instance [Behind Γ text q mods] : Shapes Γ text R q (importDeclaration q mods) := by
  refine .pass fun _ => .pass fun b => .ite (fun _ => ?_) fun _ => ?_
  · have hnone : Meets Γ (.form .importClause) (none : Option Node).toList := ⟨fun _ => nofun⟩
    infer_instance
  · refine .made inferInstance made_importHead fun ⟨head, assigned⟩ => .use fun hhead => ?_
    cases assigned with
    | some typeOnly =>
      exact .known (Δ := From text q head ∧ Γ) inferInstance fun h => ⟨h.2.1.1, h.2.2⟩
    | none =>
      have hmeets : Meets (Demand.Met (.form .importClause) head ∧ From text q head ∧ Γ)
        (.form .importClause) (some head).toList := inferInstanceAs (Meets _ _ [head])
      exact .known (Δ := Demand.Met (.form .importClause) head ∧ From text q head ∧ Γ)
        inferInstance fun h => ⟨hhead rfl, h.2.1.1, h.2.2⟩

end Imports

/-! ### Exports -/

instance : Shapes Γ text R q exportSource := by unfold exportSource; infer_instance

instance : Shapes Γ text R q exportClause := by
  refine .pass fun b => .ite (fun _ => .start fun q => inferInstance) fun _ => inferInstance

instance [Behind Γ text q mods] : Shapes Γ text R q (exportAssignment q mods) := by
  unfold exportAssignment
  infer_instance

omit [ShapesGoals text R] in
instance : Shapes Γ text R q (namespaceExportDeclaration q) := by
  unfold namespaceExportDeclaration
  infer_instance

instance [Behind Γ text q mods] : Shapes Γ text R q (exportDeclaration q mods) := by
  refine .pass fun typeOnly => ?_
  refine .ite (fun _ => .pass fun _ => ?_) fun _ => ?_
  all_goals exact .ofPair inferInstance fun clause source => inferInstance

instance [Behind Γ text q mods] : Shapes Γ text R q (exportRest q mods) := by
  refine .pass fun k => ?_
  split <;> infer_instance

/-! ### Namespaces -/

instance : Shapes Γ text R q moduleBlock := by unfold moduleBlock; infer_instance

instance : Shapes Γ text R q moduleBodyOrSemicolon := by
  unfold moduleBodyOrSemicolon
  infer_instance

/-! ### Behind a keyword -/

omit [ShapesGoals text R] in
instance : Shapes Γ text R q enumMember := .start fun _ => inferInstance

section Keyed

variable (hq : start ≤ q) (hmods : From text start mods) (hwords : Words text q mods)

include hq hmods hwords

lemma functionDeclaration_keyed :
    Keyed True text R q .functionKw (functionDeclaration start mods) (From text start) := by
  refine ⟨_, rfl, .bind inferInstance fun asterisk => .pass fun nameless => ?_⟩
  refine .choose inferInstance inferInstance fun name => ?_
  refine .made inferInstance (.inContext made_signature) fun parts => .use fun hparts => ?_
  have hb : Behind (SignatureParts parts ∧ From text q parts ∧ From text q name ∧
      From text q asterisk ∧ True) text q ([.one .asterisk asterisk, .one .name name] ++ parts) :=
    inferInstance
  cases hparts with
  | mk types params type body =>
    change Reads _ text R q (finish .functionDeclaration start [.optional .modifier mods,
      .one .asterisk asterisk, .one .name name, .optional .typeParameter types,
      .many .parameter params, .one .declaredType type, .one .body body]) _
    have hwhole : Behind _ text q [Part.one .asterisk asterisk, .one .name name,
      .optional .typeParameter types, .many .parameter params, .one .declaredType type,
      .one .body body] := hb
    exact finish_behind hq hmods (fun _ => hwords) (.ofNone fun r => by cases r <;> rfl)

lemma interfaceDeclaration_keyed :
    Keyed True text R q .interfaceKw (interfaceDeclaration start mods) (From text start) := by
  refine ⟨_, rfl, .bind inferInstance fun name => .bind inferInstance fun types => ?_⟩
  refine .made inferInstance made_heritageClauses fun heritage =>
    .bind inferInstance fun members => ?_
  exact finish_behind hq hmods (fun _ => hwords)
    (.ofOne .member members fun r => by cases r <;> simp)

lemma typeAliasDeclaration_keyed :
    Keyed True text R q .typeKw (typeAliasDeclaration start mods) (From text start) := by
  refine ⟨_, rfl, .bind inferInstance fun name => .bind inferInstance fun types =>
    .pass fun _ => ?_⟩
  refine .bind inferInstance fun type => .pass fun _ => ?_
  exact finish_behind hq hmods (fun _ => hwords) (.ofNone fun r => by cases r <;> rfl)

lemma enumDeclaration_keyed :
    Keyed True text R q .enumKw (enumDeclaration start mods) (From text start) := by
  refine ⟨_, rfl, .bind inferInstance fun name => .bind inferInstance fun members => ?_⟩
  exact finish_behind hq hmods (fun _ => hwords)
    (.ofOne .member members fun r => by cases r <;> simp)

lemma namespaceRest_reads {flags : NodeFlags} :
    Reads True text R q (namespaceRest start mods flags) (From text start) := by
  refine .bind inferInstance fun name => .pass fun b =>
    .choose inferInstance inferInstance fun body => ?_
  exact finish_behind hq hmods (fun _ => hwords) (.ofNone fun r => by cases r <;> rfl)

end Keyed

instance (namespaceWord : Bool) : Shapes Γ text R q (innerNamespace namespaceWord) := by
  refine .start fun q => ?_
  have hnone : From text q (none : Option NodeList) := fun _ => nofun
  exact (namespaceRest_reads (Nat.le_refl q) hnone fun hw => absurd rfl hw.1).known fun _ => trivial

/-! ### Variables -/

instance : Shapes Γ text R q variableDeclaration := by
  refine .start fun q => .bind inferInstance fun name => .pass fun b => ?_
  exact .choose inferInstance inferInstance fun exclamation => inferInstance

/-- The list of declared variables, with its elements behind `q`. -/
def ListAt (text : Source) (start q : Nat) (n : Node) : Prop :=
  From text start n ∧ ∀ e ∈ n.partsOf .element, q ≤ e.pos

lemma declared_reads {flags : NodeFlags} (hq : start ≤ q) :
    Reads Γ text R q (pos >>= fun first => separated variableDeclaration >>= fun nodes =>
      listFrom first nodes >>= fun list =>
        finish .variableDeclarationList start [.many .element list] flags)
      (ListAt text start q) := by
  refine .bind inferInstance fun first => .bind inferInstance fun nodes => ?_
  refine .bind inferInstance fun list => ⟨fun hΓ s hs hq' => ⟨hs, hq', ?_, fun e he => ?_⟩⟩
  · have hnode : Shapes (From text start list ∧ True) text R start
        (finish .variableDeclarationList start [.many .element list] flags) := inferInstance
    exact (hnode.runs ⟨hΓ.1.mono hq, trivial⟩ s hs (Nat.le_trans hq hq')).2.2
  · have hpart : e ∈ (Part.under .element [Part.many .element list]).map (·.withRole .element) := by
      rw [← Node.partsOf_ofParts]
      exact he
    obtain ⟨b, hb, rfl⟩ := List.mem_map.1 hpart
    have hbare : b ∈ list.nodes := by simpa [Part.under] using hb
    have hpos := (hΓ.1.2 b hbare).1.pos
    cases b
    exact hpos

instance : Shapes Γ text R q variableDeclarationList := by
  refine .start fun q => .pass fun opening => ?_
  have hlist {flags : NodeFlags} : Shapes Γ text R q (next >>= fun _ => pos >>= fun first =>
      separated variableDeclaration >>= fun nodes => listFrom first nodes >>= fun list =>
        finish .variableDeclarationList q [.many .element list] flags) :=
    .pass fun _ => .bind inferInstance fun first => inferInstance
  exact .ite (fun _ => .pass fun _ => hlist) fun _ => hlist

omit [ShapesGoals text R] in
/-- What is read behind the token at hand. -/
lemma Ended.next {s : State} {p : Parse Node} {out : Node → Prop} (hs : s.scanner.Clear text)
    (hp : Reads True text R s.scanner.tokenEnd p out) :
    Ended text R s.scanner.tokenEnd (next >>= fun _ => p) out s :=
  hp.runs trivial _ (Clearing.clear text R s hs) (Nat.le_of_eq s.scanner.scan_fullStart.symm)

omit [ShapesGoals text R] in
/-- A step that only looks at what is at hand. -/
lemma Ended.look {γ : Type} {s : State} {p : Parse γ} {a : γ} {f : γ → Parse Node}
    {out : Node → Prop} (hp : p.run R s = (a, s)) (h : Ended text R q (f a) out s) :
    Ended text R q (p >>= f) out s := by
  unfold Ended
  rw [run_bind, hp]
  exact h

omit [ShapesGoals text R] in
lemma Ended.mono {s : State} {p : Parse Node} {out : Node → Prop} (h : Ended text R q p out s)
    (hq : start ≤ q) : Ended text R start p out s := ⟨h.1, Nat.le_trans hq h.2.1, h.2.2⟩

/-- Declared variables stand behind the word that the list begins with. -/
lemma variableDeclarationList_ended {s : State} (hs : s.scanner.Clear text) :
    Ended text R s.scanner.tokenEnd variableDeclarationList
      (ListAt text s.scanner.fullStart s.scanner.tokenEnd) s := by
  have hle := hs.placed.fullStart_le_tokenEnd
  have hlist {flags : NodeFlags} : Reads True text R s.scanner.tokenEnd
      (pos >>= fun first => separated variableDeclaration >>= fun nodes =>
        listFrom first nodes >>= fun list =>
          finish .variableDeclarationList s.scanner.fullStart [.many .element list] flags)
      (ListAt text s.scanner.fullStart s.scanner.tokenEnd) := declared_reads hle
  refine .look (p := pos) rfl (.look (p := token) rfl ?_)
  dsimp only
  split
  · exact .next hs (.pass fun _ => hlist)
  · exact .next hs hlist

omit [ShapesGoals text R] in
/-- A statement with declared variables, which stand behind the words before them. -/
lemma finish_variables {list : Node} (hmods : From text start mods) (hlist : From text start list)
    (hfront : Worded (listed mods) → ∃ front, InTurn text front (listed mods) ∧
      ∀ e ∈ list.partsOf .element, front + 2 ≤ e.pos) :
    Reads Γ text R q (finish .variableStatement start
      [.optional .modifier mods, .one .declarationList list]) (From text start) := by
  have hparts : Behind (From text start list ∧ True) text start
    [Part.one .declarationList (some list)] := inferInstance
  have hsuits : Suited True (.form .variableStatement)
    [Part.optional .modifier mods, Part.one .declarationList (some list)] := inferInstance
  refine finish_declaration hmods (hparts.holds ⟨hlist, trivial⟩) (hsuits.suits trivial)
    (.ofNone fun r => by cases r <;> rfl) (by simp) fun _ hw => ?_
  obtain ⟨front, hwords, hbehind⟩ := hfront hw
  refine ⟨front, hwords, fun part hpart b hb r hr => ?_, by simp⟩
  obtain rfl := List.mem_singleton.1 hpart
  obtain rfl : b = list := by simpa [Part.bare] using hb
  obtain rfl := Option.some.inj hr
  exact .list (by cases b; rfl) fun e he => hbehind e (by cases b; exact he)

instance : Shapes Γ text R q (variableStatement q none) := by
  refine .bind inferInstance fun list => .pass fun _ => ⟨fun hΓ => ?_⟩
  have hnone : From text q (none : Option NodeList) := fun _ => nofun
  exact (finish_variables (Γ := True) hnone hΓ.1 fun hw => absurd rfl hw.1).runs trivial

/-! ### At a keyword -/

/-- The modifiers of a declaration have been read from `start` on, and the token at hand stands
behind them. -/
structure AtKeyword (text : Source) (start : Nat) (mods : Option NodeList) (s : State) : Prop where
  clear : s.scanner.Clear text
  start_le : start ≤ s.scanner.fullStart
  given : From text start mods
  words : Worded (listed mods) → InTurn text s.scanner.tokenStart (listed mods)
  width : Worded (listed mods) → s.scanner.kind.isKeyword = true →
    s.scanner.tokenStart + 2 ≤ s.scanner.tokenEnd

namespace AtKeyword

variable {s : State} (h : AtKeyword text start mods s)

include h

omit [ShapesGoals text R]

lemma start_le_tokenEnd : start ≤ s.scanner.tokenEnd :=
  Nat.le_trans h.start_le h.clear.placed.fullStart_le_tokenEnd

/-- What is read behind the keyword stands behind two bytes of it. -/
lemma words_tokenEnd (hk : s.scanner.kind.isKeyword = true) :
    Words text s.scanner.tokenEnd mods := by
  intro hw
  have hwidth := h.width hw hk
  exact ⟨s.scanner.tokenEnd - 2, by omega, (h.words hw).mono (by omega)⟩

end AtKeyword

omit [ShapesGoals text R] in
/-- A token at hand that is expected is taken. -/
lemma run_expect_of_kind {β : Type} {k : TokenKind} {f : Unit → Parse β} {s : State}
    (hk : s.scanner.kind = k) :
    (expect_ k >>= f).run R s = (f ()).run R (next.run R s).2 := by
  have hat : (isAt k).run R s = (true, s) := Prod.ext (beq_iff_eq.2 hk) rfl
  have haccept : (accept k).run R s = (true, (next.run R s).2) := by
    unfold accept
    rw [run_bind, hat]
    rfl
  have hexpect : (expect k).run R s = (true, (next.run R s).2) := by
    unfold expect
    rw [run_bind, haccept]
    rfl
  rw [run_bind]
  change (f ()).run R ((expect k).run R s).2 = _
  rw [hexpect]

section Ends

variable {s : State} (h : AtKeyword text start mods s)

include h

omit [ShapesGoals text R] in
lemma Keyed.ended {k : TokenKind} {p : Parse Node} (hk : s.scanner.kind = k)
    (hp : ∀ q, start ≤ q → Words text q mods → Keyed True text R q k p (From text start))
    (hkeyword : k.isKeyword = true := by rfl) :
    Ended text R start p (From text start) s := by
  obtain ⟨f, rfl, hf⟩ := hp _ h.start_le_tokenEnd (h.words_tokenEnd (hk ▸ hkeyword))
  unfold Ended
  rw [run_expect_of_kind hk]
  exact (Ended.next h.clear hf).mono h.start_le_tokenEnd

lemma variableStatement_ended {k : TokenKind} (hk : s.scanner.kind = k)
    (hkeyword : k.isKeyword = true := by rfl) :
    Ended text R start (variableStatement start mods) (From text start) s := by
  obtain ⟨hclear, hle, hlist⟩ := variableDeclarationList_ended (R := R) h.clear
  have hfinish : Reads True text R s.scanner.tokenEnd (semicolon >>= fun _ =>
      finish .variableStatement start [.optional .modifier mods,
        .one .declarationList (variableDeclarationList.run R s).1]) (From text start) := by
    refine .pass fun _ => finish_variables h.given (hlist.1.mono h.start_le) fun hw => ?_
    obtain ⟨front, he, hwords⟩ := h.words_tokenEnd (hk ▸ hkeyword) hw
    exact ⟨front, hwords, he ▸ hlist.2⟩
  exact Ended.mono (hfinish.runs trivial _ hclear hle) h.start_le_tokenEnd

/-- `global` is the name of what it declares. -/
lemma globalDeclaration_ended {flags : NodeFlags} (hk : s.scanner.kind = .globalKw) :
    Ended text R start (identifierName >>= fun name => moduleBodyOrSemicolon >>= fun body =>
      finish .moduleDeclaration start [.optional .modifier mods, .one .name name, .one .body body]
        flags) (From text start) s := by
  have hat : atWord.run R s = (true, s) := by
    refine Prod.ext ?_ rfl
    change s.scanner.kind.isIdentifierOrKeyword = true
    rw [hk]
    rfl
  have hrun : identifierName.run R s = word.run R s := by
    unfold identifierName
    rw [run_bind, hat]
    rfl
  have hname : Shapes True text R start identifierName := inferInstance
  obtain ⟨hclear, -, hname⟩ := hname.runs trivial s h.clear h.start_le
  rw [hrun] at hclear hname
  have hle : s.scanner.tokenEnd ≤ (word.run R s).2.scanner.fullStart :=
    Nat.le_of_eq s.scanner.scan_fullStart.symm
  have hrest : Reads True text R s.scanner.tokenEnd (moduleBodyOrSemicolon >>= fun body =>
      finish .moduleDeclaration start
        [.optional .modifier mods, .one .name (word.run R s).1, .one .body body] flags)
      (From text start) := by
    refine .bind inferInstance fun body => ⟨fun hΓ => ?_⟩
    have hparts : Behind (From text start body ∧ From text start (word.run R s).1 ∧ True) text start
      [Part.one .name (some (word.run R s).1), Part.one .body body] := inferInstance
    have hsuits : Suited True (.form .moduleDeclaration) [Part.optional .modifier mods,
      Part.one .name (some (word.run R s).1), Part.one .body body] := inferInstance
    refine (finish_declaration (Γ := True) h.given
      (hparts.holds ⟨hΓ.1.mono h.start_le_tokenEnd, hname, trivial⟩) (hsuits.suits trivial)
      (.ofNone fun r => by cases r <;> rfl) (by simp) fun _ hw => ?_).runs trivial
    have hwidth := h.width hw (by rw [hk]; rfl)
    refine ⟨s.scanner.tokenStart, h.words hw, fun part hpart b hb r hr => ?_, by simp⟩
    rcases List.mem_cons.1 hpart with rfl | hpart
    · obtain rfl : b = (word.run R s).1 := by simpa [Part.bare] using hb
      obtain rfl := Option.some.inj hr
      have hskip := h.clear.front (by rw [hk]; rfl)
      exact .word rfl rfl (Nat.le_of_eq hskip.symm)
        (Nat.le_trans (Nat.le_trans (Nat.le_add_right _ 2) hwidth) hle)
    · obtain rfl := List.mem_singleton.1 hpart
      have hpos := (hΓ.1 b (by simpa [Part.bare] using hb)).1.pos
      refine .later (Nat.le_trans hwidth ?_)
      cases b
      exact hpos
  unfold Ended
  rw [run_bind, hrun]
  exact Ended.mono (hrest.runs trivial _ hclear hle) h.start_le_tokenEnd

lemma moduleDeclaration_ended {k : TokenKind} (hk : s.scanner.kind = k)
    (hkeyword : k.isKeyword = true := by rfl) :
    Ended text R start (moduleDeclaration start mods) (From text start) s := by
  refine .look (p := token) rfl ?_
  split
  · next hglobal => exact globalDeclaration_ended h (beq_iff_eq.1 hglobal)
  · have hle := h.start_le_tokenEnd
    have hwords := h.words_tokenEnd (hk ▸ hkeyword)
    refine (Ended.next h.clear (.pass fun b => .ite (fun _ => ?_) fun _ => ?_)).mono hle
    · refine .bind inferInstance fun name => .bind inferInstance fun body => ?_
      exact finish_behind hle h.given (fun _ => hwords) (.ofNone fun r => by cases r <;> rfl)
    · exact namespaceRest_reads hle h.given hwords

lemma declarationRest_ended :
    Ended text R start (declarationRest start mods) (From text start) s := by
  have : Behind True text start mods := ⟨fun _ => h.given⟩
  have hwhole {p : Parse Node} (hp : Shapes True text R start p) :
      Ended text R start p (From text start) s := hp.runs trivial s h.clear h.start_le
  refine .look (p := token) (a := s.scanner.kind) rfl ?_
  split
  iterate 5 next hk => exact variableStatement_ended h hk
  next hk => exact Keyed.ended h hk fun q hq hw => functionDeclaration_keyed hq h.given hw
  next hk => exact Keyed.ended h hk fun q hq hw => classLike_keyed hq h.given (.inl rfl) fun _ => hw
  next hk => exact Keyed.ended h hk fun q hq hw => interfaceDeclaration_keyed hq h.given hw
  next hk => exact Keyed.ended h hk fun q hq hw => typeAliasDeclaration_keyed hq h.given hw
  next hk => exact Keyed.ended h hk fun q hq hw => enumDeclaration_keyed hq h.given hw
  iterate 3 next hk => exact moduleDeclaration_ended h hk
  iterate 2 exact hwhole inferInstance
  have helements : Behind True text start
      (mods.getD (⟨[], { pos := start, stop := start }⟩ : NodeList)) := by
    cases mods with
    | none => exact ⟨fun _ => ⟨Nat.le_refl start, fun _ h => absurd h List.not_mem_nil⟩⟩
    | some l => exact ⟨fun _ => h.given l rfl⟩
  exact hwhole (.pass fun _ => inferInstance)

end Ends

/-! ### Modifiers -/

omit [ShapesGoals text R] in
/-- A modifier is a word that is taken, or it is none at all or no word. -/
lemma modifier_cases (s : State) :
    (modifier.run R s).1 = none ∧ (modifier.run R s).2.scanner = s.scanner ∨
    (∃ m, (modifier.run R s).1 = some m ∧ m.kind = .form .decorator) ∨
    ∃ m, (modifier.run R s).1 = some m ∧ m.stop = s.scanner.tokenEnd ∧
      (modifier.run R s).2.scanner = s.scanner.scan := by
  have hdecorator : (decorator.run R s).1.kind = .form .decorator :=
    Made.after (fun _ => .after fun _ => .after fun _ => .finish) s
  have hstop (s : State) : (tokenNode.run R s).1.stop = s.scanner.tokenEnd :=
    s.scanner.scan_fullStart
  have hscanner : (isModifierHere.run R s).2.scanner = s.scanner := Peeks.scanner_run R s
  have htoken : token.run R s = (s.scanner.kind, s) := rfl
  unfold modifier
  rw [run_bind, htoken]
  dsimp only
  split
  · exact .inr (.inl ⟨_, rfl, hdecorator⟩)
  split
  · rw [run_bind]
    split
    · refine .inr (.inr ⟨_, rfl, (hstop _).trans ?_, ?_⟩)
      · rw [hscanner]
      · change (isModifierHere.run R s).2.scanner.scan = _
        rw [hscanner]
    · exact .inl ⟨rfl, hscanner⟩
  · exact .inl ⟨rfl, rfl⟩

/-- Words that have been read one after the other stand before the token at hand. -/
structure Wordy (text : Source) (σ : Scanner) (ms : List Node) (σ' : Scanner) : Prop where
  front : σ.tokenStart ≤ σ'.tokenStart
  words : InTurn text σ'.tokenStart ms
  behind : ∀ m ∈ ms, σ.tokenStart ≤ Trivia.skip text m.stop
  scanned : ms = [] ∧ σ' = σ ∨ ∃ τ : Scanner, σ' = τ.scan ∨ σ' = τ.halt

omit [ShapesGoals text R] in
lemma manyModifiers_wordy (n : Nat) (s : State) (hs : s.scanner.Clear text)
    (hw : ∀ m ∈ ((manyUpTo modifier n).run R s).1, ∃ k, m.kind = .token k) :
    Wordy text s.scanner ((manyUpTo modifier n).run R s).1
      ((manyUpTo modifier n).run R s).2.scanner := by
  have hnone (σ : Scanner) : Wordy text σ [] σ :=
    ⟨Nat.le_refl _, ⟨by simp, .nil⟩, by simp, .inl ⟨rfl, rfl⟩⟩
  induction n generalizing s with
  | zero =>
    have hscanner : ((manyUpTo modifier 0).run R s).2.scanner = s.scanner.halt :=
      scanner_giveUp R s
    have hstart : s.scanner.halt.tokenStart = s.scanner.tokenStart :=
      congrArg Cursor.pos s.scanner.start_halt
    rw [hscanner]
    change Wordy text s.scanner [] s.scanner.halt
    exact ⟨Nat.le_of_eq hstart.symm, ⟨by simp, .nil⟩, by simp, .inr ⟨s.scanner, .inr rfl⟩⟩
  | succ n ih =>
    rw [manyUpTo, run_bind] at hw ⊢
    obtain ⟨hm, hscanner⟩ | ⟨m, hm, hk⟩ | ⟨m, hm, hstop, hscanner⟩ := modifier_cases (R := R) s
    · rw [hm]
      change Wordy text s.scanner [] (modifier.run R s).2.scanner
      exact hscanner ▸ hnone _
    · rw [hm] at hw
      obtain ⟨k, hk'⟩ := hw m (List.mem_cons_self ..)
      cases hk.symm.trans hk'
    · rw [hm] at hw ⊢
      obtain ⟨hclear, hskip⟩ := Scanner.scan_clear hs.source hs.skips hs.cursor
      have hle : s.scanner.tokenStart ≤ s.scanner.scan.tokenStart := by
        have h := hclear.placed.fullStart_le
        rw [s.scanner.scan_fullStart] at h
        exact Nat.le_trans hs.placed.tokenStart_le h
      obtain ⟨hfront, hwords, hbehind, hscanned⟩ := ih (modifier.run R s).2 (hscanner ▸ hclear)
        fun m hm => hw m (List.mem_cons_of_mem _ hm)
      rw [hscanner] at hfront hbehind
      have hnext : Trivia.skip text m.stop = s.scanner.scan.tokenStart := by rw [hstop, hskip]
      refine ⟨Nat.le_trans hle hfront, ⟨List.forall_mem_cons.2 ⟨?_, hwords.le_front⟩,
        .cons (fun b hb => ?_) hwords.ordered⟩, List.forall_mem_cons.2 ⟨?_, fun b hb => ?_⟩,
      .inr ?_⟩
      · exact hnext ▸ hfront
      · exact hnext ▸ hbehind b hb
      · exact hnext ▸ hle
      · exact Nat.le_trans hle (hbehind b hb)
      · obtain ⟨-, h⟩ | h := hscanned
        · exact ⟨s.scanner, .inl (h.trans hscanner)⟩
        · exact h

/-- **Behind the modifiers stands the keyword**, where the modifiers are words. -/
lemma modifiers_atKeyword {s : State} (hs : s.scanner.Clear text) :
    AtKeyword text s.scanner.fullStart (modifiers.run R s).1 (modifiers.run R s).2 := by
  have hmods : Shapes True text R s.scanner.fullStart modifiers := inferInstance
  obtain ⟨hclear, hle, hgiven⟩ := hmods.runs trivial s hs (Nat.le_refl _)
  have hlisted : listed (modifiers.run R s).1 = ((manyUpTo modifier s.limit).run R s).1 := by
    change listed ((listFrom? _ ((manyUpTo modifier s.limit).run R s).1).run R _).1 = _
    unfold listFrom?
    cases ((manyUpTo modifier s.limit).run R s).1 <;> rfl
  have hscanner :
      (modifiers.run R s).2.scanner = ((manyUpTo modifier s.limit).run R s).2.scanner := by
    change ((listFrom? _ ((manyUpTo modifier s.limit).run R s).1).run R _).2.scanner = _
    unfold listFrom?
    cases ((manyUpTo modifier s.limit).run R s).1 <;> rfl
  have hwordy (hw : Worded (listed (modifiers.run R s).1)) :=
    manyModifiers_wordy (R := R) s.limit s hs
    (hlisted ▸ hw.2)
  refine ⟨hclear, hle, hgiven, fun hw => ?_, fun hw hk => ?_⟩
  · rw [hlisted, hscanner]
    exact (hwordy hw).words
  · obtain ⟨h, -⟩ | ⟨τ, h | h⟩ := (hwordy hw).scanned
    · exact absurd (hlisted.trans h) hw.1
    · rw [hscanner, h] at hk ⊢
      exact Scanner.two_le_scan hk
    · rw [hscanner, h] at hk
      have hword : ∀ k ∈ [TokenKind.jsxText, .jsxTextAllWhiteSpaces, .endOfFile],
          k.isKeyword ≠ true := by decide
      exact absurd hk (hword _ τ.kind_halt)

instance : Shapes Γ text R q declaration where
  runs _ s hs hq := by
    have hrest : Ended text R s.scanner.fullStart declaration (From text s.scanner.fullStart) s :=
      declarationRest_ended (modifiers_atKeyword (R := R) hs)
    exact ⟨hrest.1, Nat.le_trans hq hrest.2.1, hrest.2.2.mono hq⟩

end EstreeLint.Grammar
