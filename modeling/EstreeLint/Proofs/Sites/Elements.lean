import EstreeLint.Proofs.Sites.Expressions

/-!
What the rules for elements anchor. Braces around nothing are told apart from braces around an
expression: what is left of them is only where they stand.
-/

namespace EstreeLint.Grammar

open Parse
open Text (IsCut)

variable {text : Source} {clean : Prop} {R : Runner} {q : Nat}

/-! ### Names and closing tokens -/

instance : Clearing nextText := by unfold nextText; infer_instance

instance (k : TokenKind) (inExpression : Bool) : Clearing (expectClosing k inExpression) := by
  unfold expectClosing
  dsimp only
  infer_instance

instance : Sites text clean R hyphenatedName (Sited text clean) := .of (.pass fun _ => .last)

lemma namespacedRest_keeps {name : Node} (hn : Sited text clean name) (hq : IsCut text q) :
    Keeps text clean R (fun _ => True) (namespacedRest q name) (Sited text clean) :=
  .pass fun _ => .sub fun name hname => .finish hq

instance : Sites text clean R tagName (Sited text clean) := by
  refine .start fun _ hq => .pass fun _ => .pass fun b => .choose fun first hfirst => ?_
  refine .askIf (namespacedRest_keeps hfirst hq) (.iterate hfirst fun e he => ?_)
  exact .askIf (.sub fun name hn => .found (.finish hq)) (.pure ifAny_none)

/-! ### Braces -/

lemma fullStart_expectClosing {s : State} {k : TokenKind} {inExpression : Bool}
    (hk : s.scanner.kind = k) :
    ((expectClosing k inExpression).run R s).2.scanner.fullStart = s.scanner.tokenEnd := by
  have hat : (isAt k).run R s = (true, s) := Prod.ext (beq_iff_eq.2 hk) rfl
  cases inExpression with
  | true =>
    have haccept : (accept k).run R s = (true, (next.run R s).2) := by
      unfold accept
      rw [run_bind, hat]
      rfl
    have hexpect : (expect k).run R s = (true, (next.run R s).2) := by
      unfold expect
      rw [run_bind, haccept]
      rfl
    change ((expect k).run R s).2.scanner.fullStart = _
    rw [hexpect]
    exact s.scanner.scan_fullStart
  | false =>
    change ((isAt k >>= fun b => _).run R s).2.scanner.fullStart = _
    rw [run_bind, hat]
    exact s.scanner.scanJsxToken_fullStart

/-- Behind a brace that was the first token from the place on. -/
structure InBraces (text : Source) (q : Nat) (σ : Scanner) : Prop where
  pos_lt : q < σ.fullStart
  skip_eq : Trivia.skip text q + 1 = σ.fullStart

lemma inBraces_scan {σ : Scanner} (hs : σ.Clear text) (hq : σ.fullStart = q)
    (hk : σ.kind = .openBrace) : InBraces text q σ.scan := by
  have hend : σ.tokenEnd = σ.tokenStart + 1 :=
    hs.tokenEnd_eq (w := ['\x7b']) (by rw [hk]; rfl)
  have hskip : Trivia.skip text σ.fullStart = σ.tokenStart := hs.front (by rw [hk]; rfl)
  have hle : σ.fullStart ≤ σ.tokenStart := hs.placed.fullStart_le
  subst hq
  constructor <;> rw [σ.scan_fullStart] <;> omega

variable [FrontGoals R] [SitesGoals text clean R]

omit [FrontGoals R] [SitesGoals text clean R] in
lemma emptyBraces_keeps {inExpression : Bool} (hq : IsCut text q) :
    Keeps text clean R (fun σ => (clean → InBraces text q σ) ∧ σ.kind = .closeBrace)
      (expectClosing .closeBrace inExpression >>= fun _ =>
        finish .jsxExpression q [.one .dots none, .one .expression none]) (Sited text clean) := by
  rintro s hs ⟨hbraces, hk⟩ -
  have hclear := Clearing.clear (p := expectClosing .closeBrace inExpression) text R s hs
  have hwritten : s.scanner.kind.spelling? = some ['\x7d'] := by rw [hk]; rfl
  have hend : s.scanner.tokenEnd = s.scanner.tokenStart + 1 := hs.tokenEnd_eq hwritten
  have hinner : IsCut text (s.scanner.tokenEnd - 1) := hs.isCut_behind hwritten
  have hle : s.scanner.fullStart ≤ s.scanner.tokenStart := hs.placed.fullStart_le
  have hstop : (pos.run R ((expectClosing .closeBrace inExpression).run R s).2).1 =
      s.scanner.tokenEnd := fullStart_expectClosing hk
  refine ⟨hclear, sited_ofParts hq hclear.fullStart (by simp) (by simp) fun h _ _ => ?_⟩
  obtain ⟨hlt, hskip⟩ := hbraces h
  have hpos : q < s.scanner.tokenEnd := by omega
  have hskip_le : Trivia.skip text q ≤ s.scanner.tokenEnd := by omega
  have hinner_start : IsCut text (Trivia.skip text q + 1) := hskip ▸ hs.fullStart
  rw [hstop]
  exact ⟨hpos, hskip_le, hinner_start, hinner⟩

instance (inExpression : Bool) : Sites text clean R (embedded inExpression) (Sited text clean) := by
  refine .of (.here fun q hq => .expectAs (fun σ hs hk => inBraces_scan hs hk.2) ?_)
  refine .atIf (.pureThen (emptyBraces_keeps hq)) ?_
  refine .sub fun dots hd => .sub fun e he => .pureThen (.pass fun _ => ?_)
  intro s hs _ _
  exact ⟨hs, sited_ofParts hq hs.fullStart (by simp [*, askingRoles]) (by simp) (by simp)⟩

/-! ### Attributes -/

instance : Sites text clean R attributeValue (IfAny (Sited text clean)) := by
  refine .of (.pass fun _ => .pass fun k => ?_)
  split
  · exact .found .last
  · exact .found .last
  · exact .found .last
  · exact .pass fun _ => .pure ifAny_none

instance : Sites text clean R spreadAttribute (Sited text clean) :=
  .start fun _ hq => .pass fun _ => .pass fun _ => .sub fun e he => .pass fun _ => .finish hq

omit [FrontGoals R] in
lemma attributeRest_keeps {name : Node} (hn : Sited text clean name) (hq : IsCut text q) :
    Keeps text clean R (fun _ => True) (attributeRest q name) (Sited text clean) :=
  .pass fun b => .perhaps fun value hv => .finish hq

instance : Sites text clean R jsxAttribute (IfAny (Sited text clean)) := by
  refine .start fun _ hq => .askIf (.found .last) (.pass fun b => .ite ?_ (.sub fun plain hp => ?_))
  · exact .pass fun _ => .pass fun _ => .pure ifAny_none
  · refine .askIf (.bind (namespacedRest_keeps hp hq) fun name hn => ?_) ?_
    · exact .found (attributeRest_keeps hn hq)
    · exact .found (attributeRest_keeps hp hq)

instance : Sites text clean R jsxAttributes (Sited text clean) :=
  .start fun _ hq => .sub fun list hl => .finish hq

/-! ### Tags and children -/

instance (inExpression : Bool) :
    Sites text clean R (openingTag inExpression) (Sited text clean) := by
  refine .start fun _ hq => .pass fun _ => .askIf (.pass fun _ => .finish hq) ?_
  refine .sub fun name hn => .pass fun b => ?_
  refine .perhaps (P := fun l => SitedList text clean l ∧ Delimited text clean l) fun args ha => ?_
  simp only [ifAny_and] at ha
  refine .sub fun list hl => .askIf (.pass fun _ => .finish hq) ?_
  exact .pass fun _ => .pass fun _ => .finish hq

omit [FrontGoals R] [SitesGoals text clean R] in
instance (inExpression : Bool) :
    Sites text clean R (closingTag inExpression) (Sited text clean) := by
  refine .start fun _ hq => .askIf (.askIf (.pass fun _ => .finish hq) ?_) (.finish hq)
  exact .sub fun name hn => .pass fun _ => .finish hq

omit [FrontGoals R] [SitesGoals text clean R] in
instance : Sites text clean R textChild (Sited text clean) :=
  .start fun _ hq => .pass fun text => .pass fun _ => .token hq

instance (opening : Node) : Sites text clean R (child opening) (IfAny (Sited text clean)) := by
  refine .of (.pass fun k => ?_)
  split
  all_goals first
    | exact .pure ifAny_none
    | exact .found .last
    | exact .pass fun _ => .pure ifAny_none

omit [FrontGoals R] in
lemma elementRest_keeps {form : Form} {opening : Node} {inExpression : Bool}
    (ho : Sited text clean opening) (hq : IsCut text q) (hform : form ∉ specialForms) :
    Keeps text clean R (fun _ => True) (elementRest form q opening inExpression)
      (Sited text clean) := by
  have each := (inferInstance : Sites text clean R (child opening) (IfAny (Sited text clean)))
  refine .pass fun start => .bind (Sites.repeated each.keeps).keeps fun children hc => ?_
  refine .listFrom hc fun l hl => .sub fun closing hclosing => .pass fun _ => ?_
  exact .finish hq (by simp [*, askingRoles]) hform

instance (inExpression : Bool) : Sites text clean R (element inExpression) (Sited text clean) := by
  refine .start fun _ hq => .sub fun opening ho => ?_
  cases h : opened? opening with
  | none => exact .pure ho
  | some form =>
    refine elementRest_keeps ho hq ?_
    unfold opened? at h
    split at h <;> cases h <;> decide

end EstreeLint.Grammar
