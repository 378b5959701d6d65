import EstreeLint.Proofs.Layout.Types
import EstreeLint.Proofs.Shapes.Steps
import EstreeLint.Proofs.Sites.Types

/-!
What the rules for names, bindings, members, types and classes shape.
-/

namespace EstreeLint.Grammar

open Parse

set_option synthInstance.maxSize 20000

variable {text : Source} {R : Runner} {q : Nat} {Γ : Prop}

/-! ### Names -/

instance : Shapes Γ text R q memberName := by unfold memberName; infer_instance

instance {entity : Node} [Behind Γ text q entity] : Shapes Γ text R q (dottedName q entity) := by
  unfold dottedName
  infer_instance

instance (allowReserved : Bool) : Shapes Γ text R q (entityName allowReserved) :=
  .start fun _ => by dsimp only; infer_instance

instance : Shapes Γ text R q exportedName := by unfold exportedName; infer_instance

lemma made_exportedName : Made R exportedName (Demand.Met .token) :=
    .after fun _ => .ite .literal .identifierName

/-- A brace that is read again as a piece of a template is a brace. -/
lemma Reads.rescanTemplate {p p' : Parse Node} (h : Shapes Γ text R q p)
    (h' : Shapes Γ text R q p') :
    Shapes Γ text R q (isAt .closeBrace >>= fun b =>
      if b = true then discard (rescan Scanner.rescanTemplate) >>= fun _ => p else p') where
  runs hΓ s hs hq := by
    have hat : (isAt .closeBrace).run R s = (s.scanner.kind == .closeBrace, s) := rfl
    unfold Ended
    rw [run_bind, hat]
    dsimp only
    split
    · next hk =>
      exact h.runs hΓ { s with scanner := s.scanner.rescanTemplate }
        (hs.rescanTemplate (by simpa using hk)) hq
    · exact h'.runs hΓ s hs hq

instance : Shapes Γ text R q templatePiece :=
  .rescanTemplate inferInstance (.pass fun _ => .start fun _ => inferInstance)

lemma template_shapes {form spanForm : Form} {substitution : Parse Node}
    (h : ∀ q, Shapes Γ text R q substitution) [IsTrue (isUsual (.form form))]
    [IsTrue (isUsual (.form spanForm))] [∀ Δ ns, Meets Δ (demand (.form form) .head) ns]
    [∀ Δ ns, Meets Δ (demand (.form form) .span) ns]
    [∀ Δ ns, Meets Δ (demand (.form spanForm) .expression) ns]
    [∀ Δ ns, Meets Δ (demand (.form spanForm) .literal) ns] :
    Shapes Γ text R q (template form spanForm substitution) := by
  have span {q : Nat} : Shapes Γ text R q (templateSpan spanForm substitution) :=
    .start fun q => (h q).bind fun e => inferInstance
  refine .start fun q => .bind inferInstance fun head => .bind inferInstance fun start => ?_
  refine .bind (span.known fun hΓ => hΓ.2.2) fun first => .bind ?_ fun spans => inferInstance
  refine .iterate inferInstance fun ⟨spans, more⟩ => .ite (fun _ => ?_) fun _ => inferInstance
  refine .ofPair (span.known fun hΓ => hΓ.2.2.2.2) fun next more => ?_
  dsimp only
  exact .known (Δ := From text q next ∧ From text q spans ∧ True)
    inferInstance fun hΓ => ⟨hΓ.1, hΓ.2.2.1.1, trivial⟩

variable [ShapesGoals text R]

instance : Shapes Γ text R q propertyName := by
  refine .bind inferInstance fun k => ?_
  split
  · infer_instance
  · infer_instance
  · infer_instance
  · infer_instance
  · exact .start fun _ => inferInstance
  · infer_instance

omit [ShapesGoals text R] in
/-- Where a word is at hand, it is the name of a property. -/
lemma propertyName_of_word {s : State} (h : s.scanner.kind.isIdentifierOrKeyword = true) :
    Demand.Met .token (propertyName.run R s).1 := by
  have hat : token.run R s = (s.scanner.kind, s) := rfl
  unfold propertyName
  rw [run_bind, hat]
  dsimp only
  split
  iterate 3 exact Made.literal s
  · exact Made.after (fun _ => .leaf) s
  · next hk =>
    rw [hk] at h
    cases h
  · exact Made.identifierName s

omit [ShapesGoals text R] in
/-- A name of a property, behind the question whether a word is at hand. -/
lemma run_named {β : Type} {f : Bool → Node → Parse β} (s : State) :
    ∃ b name t, (atIdentifier >>= fun b => propertyName >>= f b).run R s = (f b name).run R t ∧
      (b = true → Demand.Met .token name) ∧
      ∃ s', s'.scanner = s.scanner ∧ propertyName.run R s' = (name, t) := by
  have hscanner := Peeks.scanner_run (p := atIdentifier) R s
  refine ⟨_, _, _, rfl, fun hb => propertyName_of_word ?_, _, hscanner, rfl⟩
  rw [hscanner]
  exact Tells.tells R s hb

lemma Reads.named {β : Type} {f : Bool → Node → Parse β} {out : β → Prop}
    (hf : ∀ b name, (b = true → Demand.Met .token name) →
      Reads (From text q name ∧ Γ) text R q (f b name) out) :
    Reads Γ text R q (atIdentifier >>= fun b => propertyName >>= f b) out where
  runs hΓ s hs hq := by
    obtain ⟨b, name, t, hrun, hname, s', hscanner, hrun'⟩ := run_named (R := R) (f := f) s
    have hshapes : Shapes True text R q propertyName := inferInstance
    rw [← hscanner] at hs hq
    obtain ⟨hs', hq', hfrom⟩ := hshapes.runs trivial s' hs hq
    rw [hrun'] at hs' hq' hfrom
    unfold Ended
    rw [hrun]
    exact (hf b name hname).runs ⟨hfrom, hΓ⟩ t hs' hq'

instance : Shapes Γ text R q declaredType := by unfold declaredType; infer_instance

instance : Shapes Γ text R q initializer := by unfold initializer; infer_instance

instance : Shapes Γ text R q importAttribute := .start fun _ => inferInstance

instance (asKey : Bool) : Shapes Γ text R q (importAttributes asKey) := by
  refine .start fun q => .bind inferInstance fun opening => .pass fun _ => ?_
  have hmade : Made R importAttribute (Demand.Met (.form .importAttribute)) :=
    .after fun _ => .after fun _ => .after fun _ => .after fun _ => .finish
  have hrest : Shapes (From text q opening ∧ Γ) text R q
      (enclosedList .openBrace .closeBrace importAttribute >>= fun elements =>
        finish .importAttributes q [.data (.token opening), .many .element elements]) :=
    .made inferInstance (.enclosedList hmade) fun l => inferInstance
  exact .ite (fun _ => .pass fun _ => hrest) fun _ => hrest

/-! ### Modifiers -/

instance : Shapes Γ text R q decorator := .start fun _ => inferInstance

instance : Shapes Γ text R q modifier := by
  unfold modifier
  dsimp only
  infer_instance

instance : Shapes Γ text R q modifiers := by unfold modifiers; infer_instance

/-! ### Bindings -/

section Binders

variable {form : Form} {start : Nat} {parts : List Part} {flags : NodeFlags}

omit [ShapesGoals text R]

/-- What has a name is shaped, whatever the name is. -/
lemma finish_named (hd : isDeclaration (.form form) = false) (hl : Lists (.form form) parts)
    [hs : Suited Γ (.form form) parts]
    [hb : Behind Γ text q parts] :
    Reads Γ text R q (finish form q parts flags)
      (fun n => ShapedFrom text q n ∧ n.kind = .form form) where
  runs hΓ s hs' hq := by
    have hparts {part : Part} (h : part ∈ parts) : From text q part.bare :=
      holds_bare (hb.holds hΓ part h)
    refine ⟨hs', hq, shaped_ofParts (fun part h b hb => (hparts h b hb).1)
      (fun r l hl => (hb.holds hΓ _ hl).1) (hs.suits hΓ) hl (fun h => ?_)
      fun part h b hb _ => (hparts h b hb).2, rfl⟩
    exact absurd (hd.symm.trans h) Bool.false_ne_true

/-- What has a name and no key for it is shaped if the name is a word. -/
lemma finish_binder (hd : isDeclaration (.form form) = false) (hl : Lists (.form form) parts)
    [Suited Γ (.form form) parts] [Behind Γ text q parts]
    (hkey : Part.under .propertyName parts = [] →
      ∀ n ∈ Part.under .name parts, Demand.Met .token n) :
    Shapes Γ text R q (finish form q parts flags) where
  runs hΓ s hs hq := by
    have hreads : Reads Γ text R q (finish form q parts flags)
        (fun n => ShapedFrom text q n ∧ n.kind = .form form) := finish_named hd hl
    obtain ⟨hs', hq', hn⟩ := hreads.runs hΓ s hs hq
    exact ⟨hs', hq', hn.1, ownKey_ofParts hkey⟩

end Binders

instance : Shapes Γ text R q objectBindingElement := by
  refine .start fun q => .bind inferInstance fun dots => .named fun startsWithName key hkey => ?_
  refine .pass fun colon => .ite (fun h => ?_) fun _ => ?_
  · refine .bind inferInstance fun value => finish_binder rfl (.ofNone fun _ => rfl) fun _ => ?_
    simpa [Part.role?, Part.bare] using hkey (Bool.and_eq_true_iff.1 h).1
  · refine .pass fun _ => .bind inferInstance fun name => .bind inferInstance fun value => ?_
    exact finish_binder rfl (.ofNone fun _ => rfl) (by simp [Part.role?, Part.bare])

/-- An element of an array is shaped, and its name may be a pattern though it has no key. -/
structure ElementFrom (text : Source) (q : Nat) (n : Node) : Prop where
  shaped : ShapedFrom text q n
  ownKey : n.kind ≠ .form .bindingElement → OwnKey n

lemma arrayBindingElement_reads :
    Reads Γ text R q arrayBindingElement (ElementFrom text q) := by
  refine .startOf (fun hp h => ⟨⟨h.1.shaped, Nat.le_trans hp h.1.pos⟩, h.2⟩) fun q => ?_
  refine .pass fun _ => .ite (fun _ => ?_) fun _ => ?_
  · have homitted : Shapes Γ text R q (node (.form .omittedExpression) q q) := inferInstance
    exact homitted.weaken fun h => ⟨h.1, fun _ => h.2⟩
  · refine .bind inferInstance fun dots => .bind inferInstance fun name => ?_
    refine .bind inferInstance fun value => ?_
    exact (finish_named rfl (.ofNone fun _ => rfl)).weaken fun h => ⟨h.1, fun hk => absurd h.2 hk⟩

instance : Shapes Γ text R q binding := by
  refine .start fun q => .bind inferInstance fun k => ?_
  split
  · refine (Shapes.enclosedListOf arrayBindingElement_reads).andThen fun elements h => ⟨?_⟩
    intro _ s hs hq
    have helement {part : Part} {b : Node} (hpart : part ∈ [.many .element elements])
        (hb : b ∈ part.bare) : ElementFrom text q b := by
      rw [List.mem_singleton.1 hpart] at hb
      exact h.2 b hb
    refine ⟨hs, hq, shaped_ofParts (fun part hpart b hb => (helement hpart hb).1)
      (fun r l hl => ?_) ?_ (.ofNone fun _ => rfl) nofun
      fun part hpart b hb hk => (helement hpart hb).2 (hk rfl), .ofOther rfl⟩
    · obtain ⟨rfl, rfl⟩ := Part.many.inj (List.mem_singleton.1 hl)
      exact h.1
    · exact (inferInstance : Suited True _ _).suits trivial
  · infer_instance
  · infer_instance

instance : Shapes Γ text R q parameter := by
  refine .start fun q => .bind inferInstance fun mods => .bind inferInstance fun dots => ?_
  exact .pass fun atThis => .choose inferInstance inferInstance fun name => inferInstance

instance : Shapes Γ text R q parameters := by unfold parameters; infer_instance

instance (k : TokenKind) : Shapes Γ text R q (typeAfter k) := by unfold typeAfter; infer_instance

omit [ShapesGoals text R] in
instance : Shapes Γ text R q varianceWord := by unfold varianceWord; infer_instance

instance : Shapes Γ text R q typeParameter := .start fun _ => inferInstance

instance : Shapes Γ text R q typeParameters := by unfold typeParameters; infer_instance

instance : Shapes Γ text R q typeArguments := by unfold typeArguments; infer_instance

/-! ### Signatures -/

instance (form : Form) [IsTrue (isUsual (.form form))]
    [∀ ns, Meets Γ (demand (.form form) .element) ns] :
    Shapes Γ text R q (braced form) := .start fun _ => inferInstance

instance : Shapes Γ text R q block := by unfold block; infer_instance

instance : Shapes Γ text R q bodyOrSemicolon := by unfold bodyOrSemicolon; infer_instance

omit [ShapesGoals text R] in
instance : Shapes Γ text R q thisType := .start fun _ => inferInstance

instance : Shapes Γ text R q typeOrPredicate := .start fun _ => by dsimp only; infer_instance

instance : Shapes Γ text R q returnType := by unfold returnType; infer_instance

/-- The parts of a signature, which hold a list of parameters, be it empty. -/
inductive SignatureParts : List Part → Prop where
  | mk (types : Option NodeList) (params : NodeList) (type body : Option Node) :
    SignatureParts [.optional .typeParameter types, .many .parameter params,
      .one .declaredType type, .one .body body]

omit [ShapesGoals text R] in
lemma made_signature {ending : Parse (Option Node)} : Made R (signature ending) SignatureParts :=
  .after fun types => .after fun params => .after fun type => .after fun body =>
    .pure (.mk types params type body)

instance {ending : Parse (Option Node)} [Shapes Γ text R q ending] :
    Shapes Γ text R q (signature ending) := by
  refine .bind inferInstance fun types => .bind inferInstance fun params => ?_
  refine .bind inferInstance fun type => .bind ?_ fun body => inferInstance
  exact .known (Δ := Γ) inferInstance fun hΓ => hΓ.2.2.2

instance : Shapes Γ text R q typeSignature := by
  have hend : Shapes Γ text R q (typeMemberEnd >>= fun _ => pure none : Parse (Option Node)) :=
    .pass fun _ => inferInstance
  exact inferInstanceAs (Shapes Γ text R q (signature _))

omit [ShapesGoals text R] in
/-- A node with a signature that is a declaration of no kind with words before it. -/
lemma finish_signature {form : Form} {parts sig : List Part} {flags : NodeFlags}
    (hsig : SignatureParts sig) [hb : Behind Γ text q parts] [hb' : Behind Γ text q sig]
    [hs : Suited Γ (.form form) parts] (hd : isDeclaration (.form form) = false := by rfl)
    (hr : ∀ r ∈ [Role.typeParameter, .parameter, .declaredType, .body],
      demand (.form form) r = .anything := by decide)
    (hl : ∀ r, holdsList (.form form) r = true → r = .parameter := by
      intro r h; cases r <;> first | rfl | cases h)
    (hk : isBinder (.form form) = false := by rfl) :
    Shapes Γ text R q (finish form q (parts ++ sig) flags) := by
  have hrole {r : Role} (h : r ∈ [Role.typeParameter, .parameter, .declaredType, .body])
      (m : Node) :
      (demand (.form form) r).Met m := by
    rw [hr r h]
    trivial
  refine Shapes.finish_whole (fun hΓ => ?_) (fun hΓ => (hs.suits hΓ).append ?_) (fun r h => ?_)
    (fun _ h => absurd (hd.symm.trans h) Bool.false_ne_true) hk
  · exact List.forall_mem_append.2 ⟨hb.holds hΓ, hb'.holds hΓ⟩
  · cases hsig
    refine suits_cons_of_role (Part.role?_optional ..) (fun m _ => hrole (by simp) m) ?_
    refine suits_cons_of_role rfl (fun m _ => hrole (by simp) m) ?_
    refine suits_cons_of_role rfl (fun m _ => hrole (by simp) m) ?_
    exact suits_cons_of_role rfl (fun m _ => hrole (by simp) m) fun _ _ h =>
      absurd h List.not_mem_nil
  · obtain rfl := hl r h
    cases hsig with
    | mk types params => exact ⟨params, by simp⟩

/-! ### Members -/

section Members

variable {mods : Option NodeList} [Behind Γ text q mods]

instance (inType : Bool) : Shapes Γ text R q (accessor q mods inType) := by
  refine .pass fun isGet => ?_
  extract_lets form
  have hform : form = .getAccessor ∨ form = .setAccessor := by
    unfold form
    split
    · exact .inl rfl
    · exact .inr rfl
  clear_value form
  refine .pass fun _ => .bind inferInstance fun name => ?_
  refine .made inferInstance (.inContext (.ite made_signature made_signature)) fun parts => ?_
  refine .use fun hparts => ?_
  rcases hform with rfl | rfl <;> exact finish_signature hparts

instance : Shapes Γ text R q (indexSignature q mods) := by
  refine .bind inferInstance fun params => .bind inferInstance fun type => .pass fun _ => ?_
  infer_instance

instance {asterisk question : Option Node} {name : Node} [Behind Γ text q asterisk]
    [Behind Γ text q name] [Behind Γ text q question] :
    Shapes Γ text R q (methodRest q mods asterisk name question) := by
  refine .made inferInstance (.inContext made_signature) fun parts => .use fun hparts => ?_
  exact finish_signature hparts

instance : Shapes Γ text R q (constructor q mods) := by
  refine .pass fun _ => .made inferInstance (.inContext made_signature) fun parts => ?_
  refine .use fun hparts => ?_
  change Shapes _ text R q (finish .constructor q ([.optional .modifier mods] ++ parts))
  exact finish_signature hparts

instance {name : Node} {mark : Option Node} [Behind Γ text q name] [Behind Γ text q mark] :
    Shapes Γ text R q (propertyRest q mods name mark) := by
  unfold propertyRest
  infer_instance

instance : Shapes Γ text R q (propertyOrMethod q mods) := by
  unfold propertyOrMethod
  dsimp only
  infer_instance

instance : Shapes Γ text R q (propertyOrMethodSignature q mods) := by
  refine .bind inferInstance fun name => .bind inferInstance fun question =>
    .pass fun isMethod => ?_
  refine .ite (fun _ => ?_) fun _ => ?_
  · refine .made inferInstance made_signature fun parts => .use fun hparts => ?_
    exact finish_signature hparts
  · refine .bind inferInstance fun type => .pass fun assigned => ?_
    exact .ite (fun _ => inferInstance) fun _ => inferInstance

end Members

instance : Shapes Γ text R q (staticBlock q) := by unfold staticBlock; infer_instance

instance : Shapes Γ text R q classMember := .start fun _ => inferInstance

instance : Shapes Γ text R q typeMember := by
  refine .start fun q => .pass fun isCall => .ite (fun _ => ?_) fun _ => .pass fun isNew => ?_
  · refine .made inferInstance made_signature fun parts => .use fun hparts => ?_
    have hnode : Shapes (SignatureParts parts ∧ From text q parts ∧ Γ) text R q
        (finish .callSignature q ([] ++ parts)) := finish_signature hparts
    exact .bind hnode fun n => inferInstance
  refine .ite (fun _ => .pass fun _ => ?_) fun _ => inferInstance
  refine .made inferInstance made_signature fun parts => .use fun hparts => ?_
  have hnode : Shapes (SignatureParts parts ∧ From text q parts ∧ Γ) text R q
      (finish .constructSignature q ([] ++ parts)) := finish_signature hparts
  exact .bind hnode fun n => inferInstance

instance : Shapes Γ text R q typeMembers := by unfold typeMembers; infer_instance

/-! ### Types -/

instance : Shapes Γ text R q functionType := by
  refine .start fun q => .bind inferInstance fun words => .bind inferInstance fun mods => ?_
  refine .pass fun isNew => ?_
  extract_lets form
  have hform : form = .constructorType ∨ form = .functionType := by
    unfold form
    split
    · exact .inl rfl
    · exact .inr rfl
  clear_value form
  rcases hform with rfl | rfl <;> infer_instance

instance : Shapes Γ text R q typeArgumentsOnLine := by
  unfold typeArgumentsOnLine
  infer_instance

instance : Shapes Γ text R q typeReference := .start fun _ => inferInstance

instance : Shapes Γ text R q typeQuery := .start fun _ => inferInstance

instance : Shapes Γ text R q importTypeAttributes := by
  unfold importTypeAttributes
  dsimp only
  infer_instance

instance : Shapes Γ text R q importType := .start fun _ => by dsimp only; infer_instance

omit [ShapesGoals text R] in
instance : Shapes Γ text R q signedLiteral := by
  refine .bind inferInstance fun k => ?_
  split
  · exact .start fun _ => inferInstance
  all_goals infer_instance

omit [ShapesGoals text R] in
instance : Shapes Γ text R q literalType := .start fun _ => inferInstance

instance : Shapes Γ text R q tupleElementType := .start fun _ => inferInstance

instance : Shapes Γ text R q tupleElement := .start fun _ => inferInstance

instance : Shapes Γ text R q tupleType := .start fun _ => inferInstance

omit [ShapesGoals text R] in
instance (k : TokenKind) : Shapes Γ text R q (signedMark k) := by
  unfold signedMark
  infer_instance

instance : Shapes Γ text R q strayMember := .pass fun _ => .start fun _ => inferInstance

instance : Shapes Γ text R q mappedParameter := .start fun _ => inferInstance

instance : Shapes Γ text R q mappedType := .start fun _ => inferInstance

instance : Shapes Γ text R q parenthesizedType := .start fun _ => inferInstance

instance : Shapes Γ text R q typeLiteral := .start fun _ => inferInstance

instance : Shapes Γ text R q thisTypeOrPredicate := .start fun _ => inferInstance

instance : Shapes Γ text R q basicType := by
  refine .bind inferInstance fun k => ?_
  split
  all_goals first
    | infer_instance
    | exact template_shapes fun q => inferInstanceAs (Shapes _ text R q (reach .type))

instance {type : Node} [Behind Γ text q type] : Shapes Γ text R q (brackets q type) := by
  unfold brackets
  infer_instance

instance : Shapes Γ text R q bracketedType := .start fun _ => inferInstance

instance : Shapes Γ text R q inferredParameter := .start fun _ => by dsimp only; infer_instance

instance : Shapes Γ text R q typeOperator := by
  refine .start fun q => .bind inferInstance fun k => ?_
  split <;> infer_instance

instance {constituent : Parse Node} [Shapes Γ text R q constituent] :
    Shapes Γ text R q (typeOperand constituent) :=
  .pass fun _ => inferInstance

lemma typeList_shapes {operator : TokenKind} {form : Form} {constituent : Parse Node}
    (h : ∀ q, Shapes Γ text R q constituent) [IsTrue (isUsual (.form form))]
    [∀ Δ ns, Meets Δ (demand (.form form) .element) ns] :
    Shapes Γ text R q (typeList operator form constituent) := by
  refine .start fun q => .pass fun leading => ?_
  have hp : Shapes Γ text R q constituent := h q
  have hoperand : Shapes Γ text R q (typeOperand constituent) := inferInstance
  have hrest : Shapes Γ text R q (many (behind operator (typeOperand constituent))) := inferInstance
  refine .choose hoperand hp fun first => ?_
  have hlist : Shapes (From text q first ∧ Γ) text R q
      (many (behind operator (typeOperand constituent)) >>= fun rest =>
        listFrom q (first :: rest) >>= fun list => finish form q [.many .element list]) :=
    .bind (hrest.known And.right) fun rest => inferInstance
  exact .pass fun more => .ite (fun _ => inferInstance) fun _ => hlist

instance : Shapes Γ text R q intersectionType := typeList_shapes fun _ => inferInstance

instance : Shapes Γ text R q unionType := typeList_shapes fun _ => inferInstance

instance : Shapes Γ text R q anyType := by
  refine .pass fun b => .ite (fun _ => inferInstance) fun _ => .start fun q => ?_
  infer_instance

instance : Shapes Γ text R q type := by unfold type; infer_instance

instance : Shapes Γ text R q typeArgumentsInExpression := by
  have htried : Shapes Γ text R q (rescan Scanner.rescanLess >>= fun k =>
      if (k != .lessThan) = true then pure none else next >>= fun _ => errorCount >>= fun before =>
        commaList .greaterThan (reach .type) >>= fun list => errorCount >>= fun after =>
          if (after != before) = true then pure none
          else rescan Scanner.rescanGreater >>= fun k =>
            if (k != .greaterThan) = true then pure none else next >>= fun _ =>
              canFollowTypeArguments >>= fun b =>
                if b = true then pure (some list) else pure none) := by
    refine .pass fun k => .ite (fun _ => inferInstance) fun _ => .pass fun _ =>
      .pass fun before => ?_
    exact .bind inferInstance fun list => .pass fun after => inferInstance
  exact .pass fun _ => .ite (fun _ => inferInstance) fun _ => inferInstance

end EstreeLint.Grammar
