import EstreeLint.Proofs.Progress.Starts

/-!
The steps that the grammar is written in go forward, and so do its loops.
-/

namespace EstreeLint.Grammar

open Parse

variable {α β : Type} {text : Source} {R R' : Runner} {s : State} {m ρ : Nat}
  {K K' : Scanner → Prop} {p : Parse α} {f : α → Parse β}

/-! ### Steps -/

section Steps

/-- A step that only looks at the state, and not at how often a rule may be repeated. -/
lemma Proceeds.ofPeek [Peeks p]
    (h : ∀ (R R' : Runner) (s : State) (m : Nat), p.run R' { s with limit := m } =
      ((p.run R s).1, { (p.run R s).2 with limit := m })) : Proceeds ρ p where
  starts _ R R' s m _ hs _ :=
    ⟨⟨h R R' s m, by rw [Peeks.scanner_run]; exact hs.sound,
      Nat.le_of_eq (by rw [Peeks.scanner_run])⟩, fun _ => .inr trivial⟩

instance (a : α) : Proceeds ρ (pure a) := ⟨.pure fun _ _ => trivial⟩

instance [Proceeds ρ p] [∀ a, Proceeds ρ (f a)] : Proceeds ρ (p >>= f) := ⟨.sub fun _ => .named⟩

instance [Proceeds ρ p] (g : α → β) : Proceeds ρ (g <$> p) :=
  inferInstanceAs (Proceeds ρ (p >>= fun a => pure (g a)))

instance [Proceeds ρ p] : Proceeds ρ (discard p) :=
  inferInstanceAs (Proceeds ρ (p >>= fun _ => pure ()))

instance {c : Prop} [Decidable c] {p q : Parse α} [Proceeds ρ p] [Proceeds ρ q] :
    Proceeds ρ (if c then p else q) := ⟨.ite .named .named⟩

lemma Proceeds.and {p q : Parse Bool} (_ : Proceeds ρ p) (_ : Proceeds ρ q) :
    Proceeds ρ (p <&&> q) where
  starts := .sub fun b => match b with
    | true => .named (p := q)
    | false => .named (p := pure false)

instance {p q : Parse Bool} [hp : Proceeds ρ p] [hq : Proceeds ρ q] : Proceeds ρ (p <&&> q) :=
  hp.and hq

/-- Only if both hold a token may have been taken. -/
lemma Starts.both {p q : Parse Bool} [Proceeds ρ p]
    (hq : Starts ρ Anywhere q fun b _ => b = false) :
    Starts ρ K (p <&&> q) fun b _ => b = false := by
  refine .sub fun b => ?_
  cases b with
  | true => exact hq
  | false => exact .pure fun _ _ => rfl

/-- A fact that holds where no token has been taken. -/
lemma Starts.fact {C : Prop} {p : Parse β} {out : β → Scanner → Prop} [Proceeds 4 p]
    (h : C → Starts ρ Anywhere p out) : Starts ρ (fun _ => C) p out := by
  by_cases hc : C
  · exact (h hc).mono (fun _ _ => trivial) fun _ _ h => h
  · exact .rest fun _ => hc

instance {p q : Parse Bool} [Proceeds ρ p] [Proceeds ρ q] : Proceeds ρ (p <||> q) where
  starts := .sub fun b => match b with
    | true => .named (p := pure true)
    | false => .named (p := q)

/-- Once a token has been taken, it does not matter which token is at hand. -/
instance (priority := low) [Opened K p] : Proceeds 4 p where
  starts _ _ _ _ _ taken hs _ :=
    ⟨((Opened.starts (p := p) 0) true (hs.mono (le_within 4 taken)) nofun).1,
      fun _ => .inr trivial⟩

instance : Proceeds ρ token := .ofPeek fun _ _ _ _ => rfl

instance (k : TokenKind) : Proceeds ρ (isAt k) := .ofPeek fun _ _ _ _ => rfl

instance (ks : List TokenKind) : Proceeds ρ (atAny ks) := .ofPeek fun _ _ _ _ => rfl

instance : Proceeds ρ pos := .ofPeek fun _ _ _ _ => rfl

instance : Proceeds ρ tokenStart := .ofPeek fun _ _ _ _ => rfl

instance : Proceeds ρ afterLineBreak := .ofPeek fun _ _ _ _ => rfl

instance : Proceeds ρ sameLine := .ofPeek fun _ _ _ _ => rfl

instance : Proceeds ρ tokenValue := .ofPeek fun _ _ _ _ => rfl

instance : Proceeds ρ isJsx := .ofPeek fun _ _ _ _ => rfl

instance (g : Context → Bool) : Proceeds ρ (inContext g) := .ofPeek fun _ _ _ _ => rfl

instance : Proceeds ρ errorCount := .ofPeek fun _ _ _ _ => rfl

instance (start length : Nat) (fault : SyntaxFault) : Proceeds ρ (errorAt start length fault) := by
  refine .ofPeek fun R R' s m => ?_
  simp only [errorAt, change, ofState]
  split <;> rfl

instance (fault : SyntaxFault) : Proceeds ρ (error fault) := ⟨.current fun _ => .named⟩

instance : Proceeds ρ atWord := .ofPeek fun _ _ _ _ => rfl

instance : Proceeds ρ atLiteralName := by unfold atLiteralName; infer_instance

instance : Proceeds ρ atStatementEnd := by unfold atStatementEnd; infer_instance

instance : Proceeds ρ atIdentifier where
  starts := .token fun k => by split <;> exact .mono .named (K := Anywhere)

instance [Proceeds ρ p] (add drop : Context) : Proceeds ρ (withContext add drop p) :=
  ⟨.inContext .named⟩

lemma Proceeds.ahead (h : Starts ρ Anywhere p fun _ _ => True) : Proceeds ρ (lookAhead p) :=
  ⟨h.ahead.mono (fun _ h => h) fun _ _ _ => trivial⟩

instance [Proceeds ρ p] : Proceeds ρ (lookAhead p) := .ahead .named

instance {p : Parse (Option α)} [Proceeds ρ p] : Proceeds ρ (attempt p) :=
  ⟨(Starts.tried (K := Anywhere) .named).mono (fun _ h => h) fun _ _ _ => trivial⟩

lemma Starts.nest {tooDeep p : Parse β} {out : β → Scanner → Prop}
    (ht : Starts ρ Anywhere tooDeep out) (hp : Starts ρ K p out) :
    Starts ρ K (nested tooDeep p) out :=
  .current fun _ => .ite (.sub fun _ => ht) (.oneDeeper hp)

instance {tooDeep p : Parse α} [Proceeds ρ tooDeep] [Proceeds ρ p] :
    Proceeds ρ (nested tooDeep p) := ⟨.nest .named .named⟩

end Steps

/-! ### Tokens -/

section Tokens

/-- **A token that is not the end of the text is taken.** -/
instance (g : Scanner → Scanner) [Scanner.Following g] : Opened HasToken (takeWith g) where
  starts _ _ _ _ _ _ _ hs hk :=
    ⟨⟨rfl, Scanner.Following.sound hs.escapes hs.sound,
      hs.sound.tokenStart_le_following hs.escapes⟩,
      fun ht => .inl (hs.sound.tokenStart_lt_following hs.escapes (hk ht))⟩

instance (g : Scanner → Scanner) [Scanner.Following g] : Proceeds ρ (takeWith g) where
  starts _ _ _ _ _ _ hs _ :=
    ⟨⟨rfl, Scanner.Following.sound hs.escapes hs.sound,
      hs.sound.tokenStart_le_following hs.escapes⟩, fun _ => .inr trivial⟩

instance (g : Scanner → Scanner) [Scanner.Rereading g] : Proceeds ρ (rescan g) where
  starts _ _ _ _ _ _ hs _ :=
    ⟨⟨rfl, Scanner.Rereading.sound hs.sound,
      Nat.le_of_eq (congrArg Cursor.pos (Scanner.Rereading.start _).symm)⟩, fun _ => .inr trivial⟩

/-- The token at hand is read again. -/
lemma Starts.reread {g : Scanner → Scanner} [Scanner.Rereading g] {f : TokenKind → Parse β}
    {out : β → Scanner → Prop} (hf : ∀ k, Starts ρ (At k) (f k) out) :
    Starts ρ K (rescan g >>= f) out := by
  have hscan : Starts ρ K (rescan g) fun k σ => σ.kind = k := by
    intro _ _ _ _ _ taken hs _
    obtain ⟨halike, -⟩ := Proceeds.starts (ρ := ρ) (p := rescan g) taken hs fun _ => trivial
    exact ⟨halike, fun _ => .inr rfl⟩
  exact bind hscan hf

instance : Opened HasToken next := inferInstanceAs (Opened _ (takeWith _))

instance : Proceeds ρ next := inferInstanceAs (Proceeds ρ (takeWith _))

instance : Proceeds ρ nextToken := by unfold nextToken; infer_instance

instance (k : TokenKind) : Proceeds ρ (accept k) := by unfold accept; infer_instance

instance (k : TokenKind) : Proceeds ρ (expect k) := by unfold expect; infer_instance

instance (k : TokenKind) : Proceeds ρ (expect_ k) := by unfold expect_; infer_instance

instance : Proceeds ρ semicolon := by unfold semicolon; infer_instance

instance : Proceeds ρ peek := by unfold peek; infer_instance

instance : Proceeds ρ identifierFollowsOnLine := by unfold identifierFollowsOnLine; infer_instance

namespace Starts

variable {out : β → Scanner → Prop}

/-- A token of the given kind is taken, or there is none. -/
lemma accepting {k : TokenKind} (hk : k ≠ .endOfFile := by decide) :
    Starts ρ K (Parse.accept k) fun b σ => b = false ∧ K σ ∧ σ.kind ≠ k := by
  have hat : Starts ρ K (Parse.isAt k) fun b σ => K σ ∧ (b = true ↔ σ.kind = k) :=
    fun _ _ _ s _ _ hs hK => ⟨⟨rfl, hs.sound, Nat.le_refl _⟩,
      fun ht => .inr ⟨hK ht, beq_iff_eq (a := s.scanner.kind)⟩⟩
  refine bind hat fun b => ?_
  cases b with
  | true => exact take (.opened fun σ h he => hk ((h.2.1 rfl).symm.trans he))
  | false => exact .pure

lemma accept {k : TokenKind} {f : Bool → Parse β} (hyes : Proceeds 4 (f true))
    (hno : Starts ρ (fun σ => K σ ∧ σ.kind ≠ k) (f false) out) (hk : k ≠ .endOfFile := by decide) :
    Starts ρ K (Parse.accept k >>= f) out := by
  refine bind (accepting hk) fun b => ?_
  cases b with
  | true => exact .rest
  | false => exact hno.mono

lemma acceptIf {k : TokenKind} {q₁ q₂ : Parse β} [Proceeds 4 q₁]
    (hno : Starts ρ (fun σ => K σ ∧ σ.kind ≠ k) q₂ out) (hk : k ≠ .endOfFile := by decide) :
    Starts ρ K (Parse.accept k >>= fun b => if b = true then q₁ else q₂) out :=
  accept (inferInstanceAs (Proceeds 4 q₁)) hno hk

end Starts

section Opened

instance (priority := high) [Opened K p] [∀ a, Proceeds 4 (f a)] : Opened K (p >>= f) where
  starts ρ := .take (Opened.starts ρ)

instance [Peeks p] [∀ ρ, Proceeds ρ p] [∀ a, Opened K (f a)] : Opened K (p >>= f) where
  starts ρ := .look fun _ => Opened.starts ρ

instance [Opened K p] (g : α → β) : Opened K (g <$> p) :=
  inferInstanceAs (Opened K (p >>= fun a => pure (g a)))

instance [Opened K p] : Opened K (discard p) :=
  inferInstanceAs (Opened K (p >>= fun _ => pure ()))

instance [Opened K p] (add drop : Context) : Opened K (withContext add drop p) :=
  ⟨fun ρ => .inContext (Opened.starts ρ)⟩

instance (k : TokenKind) : Opened (Begins k) (expect k) where
  starts ρ := by
    by_cases hk : k = .endOfFile
    · exact .rest
    · exact .acceptIf .rest hk

instance (k : TokenKind) : Opened (Begins k) (expect_ k) := by
  unfold expect_
  infer_instance

end Opened

end Tokens

/-! ### Nodes -/

section Nodes

instance (kind : NodeKind) (start stop : Nat) (parts : List Part) (flags : NodeFlags) :
    Proceeds ρ (node kind start stop parts flags) where
  starts _ _ _ _ _ _ hs _ := ⟨⟨rfl, hs.sound, Nat.le_refl _⟩, fun _ => .inr trivial⟩

instance (form : Form) (start : Nat) (parts : List Part) (flags : NodeFlags) :
    Proceeds ρ (finish form start parts flags) := by unfold finish; infer_instance

instance : Proceeds ρ missing := by unfold missing; infer_instance

instance : Proceeds ρ tokenNode := by unfold tokenNode; infer_instance

instance : Opened HasToken tokenNode := by unfold tokenNode; infer_instance

instance (kind : NodeKind) (payload : Payload) : Proceeds ρ (leaf kind payload) := by
  unfold leaf
  infer_instance

instance (kind : NodeKind) (payload : Payload) : Opened HasToken (leaf kind payload) := by
  unfold leaf
  infer_instance

instance (k : TokenKind) : Proceeds ρ (optionalToken k) := by unfold optionalToken; infer_instance

instance : Proceeds ρ literal where
  starts := .sub fun _ => .current fun _ => .ite (.sub fun _ => .named) .named

instance : Opened HasToken literal where
  starts _ := .look fun _ => .current fun _ => .ite (.look fun _ => .opened) .opened

instance : Proceeds ρ word := by unfold word; infer_instance

instance : Opened HasToken word := by unfold word; infer_instance

instance : Proceeds ρ identifier := by unfold identifier; infer_instance

instance : Proceeds ρ identifierName := by unfold identifierName; infer_instance

instance : Proceeds ρ privateIdentifier := by unfold privateIdentifier; infer_instance

instance (start : Nat) (nodes : List Node) : Proceeds ρ (listFrom start nodes) := by
  unfold listFrom
  infer_instance

instance (start : Nat) (nodes : List Node) : Proceeds ρ (listFrom? start nodes) := by
  unfold listFrom?
  infer_instance

end Nodes

end EstreeLint.Grammar
