import EstreeLint.Proofs.Sites.Anchored
import EstreeLint.Proofs.Layout.Lays

/-!
What a rule of the grammar anchors, told step by step.

`Keeps text clean R K p out` is about a run of `p` from a clear scanner that `K` holds of, and with
no error at its end if `clean` is asked for: it leaves the scanner clear and gives what `out` holds
of. A rule is one of the `Sites` for its own `out` from any clear scanner.
-/

namespace EstreeLint.Grammar

open Parse
open Text (IsCut)
open Scanner (Clears)

variable {α β : Type} {text : Source} {clean : Prop} {R : Runner} {K K' : Scanner → Prop}
  {p : Parse α} {f : α → Parse β} {P : α → Prop} {out : β → Prop}

/-! ### Steps without nodes -/

/-- The step keeps the scanner clear. -/
class Clearing (p : Parse α) : Prop where
  clear (text : Source) (R : Runner) (s : State) :
    s.scanner.Clear text → (p.run R s).2.scanner.Clear text

section Clearing

instance (priority := low) [Peeks p] : Clearing p where
  clear text R s h := by rwa [Peeks.scanner_run]

instance [Clearing p] [∀ a, Clearing (f a)] : Clearing (p >>= f) where
  clear text R s h := Clearing.clear (p := f (p.run R s).1) text R _ (Clearing.clear text R s h)

instance [Clearing p] (g : α → β) : Clearing (g <$> p) where
  clear text R s h := Clearing.clear (p := p) text R s h

instance [Clearing p] : Clearing (discard p) where
  clear text R s h := Clearing.clear (p := p) text R s h

instance {c : Prop} [Decidable c] {p q : Parse α} [Clearing p] [Clearing q] :
    Clearing (if c then p else q) := by
  split <;> infer_instance

instance (g : Scanner → Scanner) [Clears g] : Clearing (takeWith g) where
  clear _ _ _ h := Clears.clear h

instance (g : Scanner → Scanner) [Clears g] : Clearing (rescan g) where
  clear _ _ _ h := Clears.clear h

instance : Clearing next := by unfold next; infer_instance

instance : Clearing nextToken := by unfold nextToken; infer_instance

instance : Clearing giveUp := by unfold giveUp; infer_instance

instance (k : TokenKind) : Clearing (accept k) := by unfold accept; infer_instance

instance (k : TokenKind) : Clearing (expect k) := by unfold expect; infer_instance

instance (k : TokenKind) : Clearing (expect_ k) := by unfold expect_; infer_instance

instance : Clearing semicolon := by unfold semicolon; infer_instance

set_option synthInstance.maxSize 400 in
instance (close : TokenKind) (before : Nat) : Clearing (separation close before) := by
  unfold separation
  dsimp only
  infer_instance

instance {p q : Parse Bool} [Clearing p] [Clearing q] : Clearing (p <&&> q) where
  clear text R s h := by
    rw [run_and]
    split
    · exact Clearing.clear (p := p >>= fun _ => q) text R s h
    · exact Clearing.clear text R s h

instance {p q : Parse Bool} [Clearing p] [Clearing q] : Clearing (p <||> q) where
  clear text R s h := by
    rw [run_or]
    split
    · exact Clearing.clear text R s h
    · exact Clearing.clear (p := p >>= fun _ => q) text R s h

end Clearing

/-! ### The judgements -/

def Keeps (text : Source) (clean : Prop) (R : Runner) (K : Scanner → Prop) (p : Parse β)
    (out : β → Prop) : Prop :=
  ∀ s : State, s.scanner.Clear text → K s.scanner → (clean → (p.run R s).2.errors = []) →
    (p.run R s).2.scanner.Clear text ∧ out (p.run R s).1

/-- From any clear scanner the rule gives what `P` holds of. -/
class Sites (text : Source) (clean : Prop) (R : Runner) (p : Parse α)
    (P : outParam (α → Prop)) : Prop where
  keeps : Keeps text clean R (fun _ => True) p P

/-- Delimiters or marks of `width` bytes have just been read. -/
def Past (text : Source) (clean : Prop) (width : Nat) (σ : Scanner) : Prop :=
  clean → IsCut text (σ.fullStart - width)

/-- Forms of node that must hold more than their parts show by themselves. -/
def specialForms : List Form := [.parameter, .variableDeclaration, .jsxExpression]

namespace Keeps

lemma mono {p : Parse β} {out' : β → Prop} (h : Keeps text clean R K p out)
    (hK : ∀ σ, K' σ → K σ) (ho : ∀ b, out b → out' b) : Keeps text clean R K' p out' := by
  intro s hs hk hc
  obtain ⟨h₁, h₂⟩ := h s hs (hK _ hk) hc
  exact ⟨h₁, ho _ h₂⟩

lemma pure {b : β} (h : out b) : Keeps text clean R K (Pure.pure b) out := fun _ hs _ _ => ⟨hs, h⟩

lemma pureThen {a : α} (h : Keeps text clean R K (f a) out) :
    Keeps text clean R K (Pure.pure a >>= f) out := h

/-- One step after another. -/
lemma bind (hp : Keeps text clean R K p P)
    (hf : ∀ a, P a → Keeps text clean R (fun _ => True) (f a) out) :
    Keeps text clean R K (p >>= f) out := by
  intro s hs hk hc
  obtain ⟨h₁, h₂⟩ := hp s hs hk fun h => clean_of_clean (hc h)
  exact hf _ h₂ _ h₁ trivial hc

/-- **A rule inside another.** -/
lemma sub [hp : Sites text clean R p P]
    (hf : ∀ a, P a → Keeps text clean R (fun _ => True) (f a) out) :
    Keeps text clean R K (p >>= f) out := bind (hp.keeps.mono (fun _ _ => trivial) fun _ h => h) hf

lemma last {p : Parse β} {P : β → Prop} [hp : Sites text clean R p P]
    (ho : ∀ b, P b → out b := by exact fun _ h => h) : Keeps text clean R K p out :=
  hp.keeps.mono (fun _ _ => trivial) ho

/-- A rule that gives a binding. -/
lemma subBinding {p : Parse Node} {f : Node → Parse β} {P : Node → Prop}
    [hp : Sites text clean R p P] [hb : MakesBinding R p]
    (hf : ∀ n, P n → Binds n → Keeps text clean R (fun _ => True) (f n) out) :
    Keeps text clean R K (p >>= f) out := by
  refine bind (P := fun n => P n ∧ Binds n) ?_ fun n h => hf n h.1 h.2
  intro s hs _ hc
  exact ⟨(hp.keeps s hs trivial hc).1, (hp.keeps s hs trivial hc).2, hb.binds_run s⟩

/-- A type behind a mark. -/
lemma subMarked (width : Nat) {p : Parse Node} {f : Node → Parse β} {P : Node → Prop}
    [hp : Sites text clean R p P] [ht : ∀ here, StartsAt R here p]
    (hf : ∀ n, P n → Marked text clean width n →
      Keeps text clean R (fun _ => True) (f n) out) :
    Keeps text clean R (Past text clean width) (p >>= f) out := by
  refine bind (P := fun n => P n ∧ Marked text clean width n) ?_ fun n h => hf n h.1 h.2
  intro s hs hk hc
  obtain ⟨h₁, h₂⟩ := hp.keeps s hs trivial hc
  refine ⟨h₁, h₂, fun h => ?_⟩
  rw [(ht s.scanner.fullStart).pos_run s rfl]
  exact hk h

/-- A rule that has come to its node. -/
lemma found {p : Parse α} (h : Keeps text clean R K p P) :
    Keeps text clean R K (p >>= fun a => Pure.pure (some a)) (IfAny P) :=
  bind h fun _ ha => pure (ifAny_some.2 ha)

/-- A step without nodes. -/
lemma pass [Clearing p] (hf : ∀ a, Keeps text clean R (fun _ => True) (f a) out) :
    Keeps text clean R K (p >>= f) out :=
  fun s hs _ hc => hf _ _ (Clearing.clear text R s hs) trivial hc

/-- A step that only looks at the state. -/
lemma look [Peeks p] (hf : ∀ a, Keeps text clean R K (f a) out) :
    Keeps text clean R K (p >>= f) out := by
  intro s hs hk hc
  have hsame := Peeks.scanner_run (p := p) R s
  exact hf _ _ (hsame ▸ hs) (hsame ▸ hk) hc

/-- Where the token at hand starts. -/
lemma here {f : Nat → Parse β}
    (hf : ∀ q, IsCut text q → Keeps text clean R (fun σ => K σ ∧ σ.fullStart = q) (f q) out) :
    Keeps text clean R K (pos >>= f) out :=
  fun s hs hk hc => hf _ hs.fullStart s hs ⟨hk, rfl⟩ hc

lemma ite {c : Prop} [Decidable c] {p q : Parse β} (hp : Keeps text clean R K p out)
    (hq : Keeps text clean R K q out) : Keeps text clean R K (if c then p else q) out := by
  split
  · exact hp
  · exact hq

lemma iteOf {c : Prop} [Decidable c] {p q : Parse β} (hp : c → Keeps text clean R K p out)
    (hq : Keeps text clean R K q out) : Keeps text clean R K (if c then p else q) out := by
  split
  · exact hp ‹_›
  · exact hq

lemma askIf {p : Parse Bool} [Clearing p] {q₁ q₂ : Parse β}
    (h₁ : Keeps text clean R (fun _ => True) q₁ out)
    (h₂ : Keeps text clean R (fun _ => True) q₂ out) :
    Keeps text clean R K (p >>= fun b => if b = true then q₁ else q₂) out :=
  pass fun _ => ite h₁ h₂

lemma lookIf {p : Parse Bool} [Peeks p] {q₁ q₂ : Parse β} (h₁ : Keeps text clean R K q₁ out)
    (h₂ : Keeps text clean R K q₂ out) :
    Keeps text clean R K (p >>= fun b => if b = true then q₁ else q₂) out :=
  look fun _ => ite h₁ h₂

/-- A step that is made only under a condition, and what follows in either case. -/
lemma onlyIf {c : Prop} [Decidable c] {p : Parse Unit} [Clearing p] {f : Unit → Parse β}
    (hf : Keeps text clean R (fun _ => True) (f ()) out) :
    Keeps text clean R (fun _ => True) (if c then p >>= f else f ()) out :=
  ite (pass fun _ => hf) hf

/-- Two ways to read the same part, and what follows either. -/
lemma choose {c : Prop} [Decidable c] {q₁ q₂ : Parse α} [Sites text clean R q₁ P]
    [Sites text clean R q₂ P]
    (hf : ∀ a, P a → Keeps text clean R (fun _ => True) (f a) out) :
    Keeps text clean R K (if c then q₁ >>= f else q₂ >>= f) out :=
  ite (sub hf) (sub hf)

/-- Two ways to read the same binding, and what follows either. -/
lemma chooseBinding {c : Prop} [Decidable c] {q₁ q₂ : Parse Node} {f : Node → Parse β}
    {P : Node → Prop} [Sites text clean R q₁ P] [Sites text clean R q₂ P]
    [MakesBinding R q₁] [MakesBinding R q₂]
    (hf : ∀ n, P n → Binds n → Keeps text clean R (fun _ => True) (f n) out) :
    Keeps text clean R K (if c then q₁ >>= f else q₂ >>= f) out :=
  ite (subBinding hf) (subBinding hf)

/-- A part that is there under a condition. -/
lemma perhaps {c : Prop} [Decidable c] {q : Parse (Option α)} {f : Option α → Parse β}
    [Sites text clean R q (IfAny P)]
    (hf : ∀ o, IfAny P o → Keeps text clean R (fun _ => True) (f o) out) :
    Keeps text clean R K (if c then q >>= f else Pure.pure none >>= f) out :=
  ite (sub hf) ((hf none ifAny_none).mono (fun _ _ => trivial) fun _ h => h)

/-! ### Tokens that are expected -/

section Tokens

variable {k : TokenKind} {width : Nat}

lemma takenAs {f : Unit → Parse β}
    (hK : ∀ σ, σ.Clear text → K σ → σ.kind = k → K' σ.scan)
    (hf : Keeps text clean R K' (f ()) out) :
    Keeps text clean R (fun σ => K σ ∧ σ.kind = k) (next >>= f) out :=
  fun s hs hk hc => hf _ (Clearing.clear text R s hs) (hK _ hs hk.1 hk.2) hc

lemma atIf {q₁ q₂ : Parse β} (h₁ : Keeps text clean R (fun σ => K σ ∧ σ.kind = k) q₁ out)
    (h₂ : Keeps text clean R K q₂ out) :
    Keeps text clean R K (isAt k >>= fun b => if b = true then q₁ else q₂) out := by
  intro s hs hk hc
  have hat : (isAt k).run R s = (s.scanner.kind == k, s) := rfl
  rw [run_bind, hat] at hc ⊢
  dsimp only at hc ⊢
  split at hc
  · next h =>
    rw [if_pos h]
    exact h₁ s hs ⟨hk, by simpa using h⟩ hc
  · next h =>
    rw [if_neg h]
    exact h₂ s hs hk hc

lemma acceptAs {f : Bool → Parse β} (hK : ∀ σ, σ.Clear text → K σ → σ.kind = k → K' σ.scan)
    (ht : Keeps text clean R K' (f true) out) (hf : Keeps text clean R K (f false) out) :
    Keeps text clean R K (Parse.accept k >>= f) out := by
  have heq : Parse.accept k >>= f =
      isAt k >>= fun b => if b = true then next >>= fun _ => f true else f false := by
    unfold Parse.accept
    rw [bind_assoc]
    refine congrArg (isAt k >>= ·) (funext fun b => ?_)
    cases b <;> rfl
  rw [heq]
  exact atIf (takenAs hK ht) hf

/-- Behind an error nothing is clean. -/
lemma pastError {fault : SyntaxFault} {f : Unit → Parse β}
    (hf : Keeps text clean R (fun σ => clean → K' σ) (f ()) out) :
    Keeps text clean R K (error fault >>= f) out := by
  intro s hs _ hc
  have hsame : ((error fault).run R s).2.scanner = s.scanner := Peeks.scanner_run R s
  refine hf _ (hsame ▸ hs) (fun h => ?_) hc
  exact absurd (clean_of_clean (hc h)) (Goes.errors_error_ne_nil s)

lemma expectAs {f : Unit → Parse β} (hK : ∀ σ, σ.Clear text → K σ → σ.kind = k → K' σ.scan)
    (hf : Keeps text clean R (fun σ => clean → K' σ) (f ()) out) :
    Keeps text clean R K (Parse.expect_ k >>= f) out := by
  have hexpect : Keeps text clean R K (Parse.expect k >>= fun _ => f ()) out := by
    unfold Parse.expect
    rw [bind_assoc]
    exact acceptAs hK (hf.mono (fun _ h _ => h) fun _ h => h) (pastError hf)
  exact hexpect

/-- Behind a token its front is a cut. -/
lemma past_scan {σ : Scanner} (hw : k.spelling?.map Text.bytes = some width) (hs : σ.Clear text)
    (hk : σ.kind = k) : IsCut text (σ.scan.fullStart - width) := by
  obtain ⟨w, hspelling, rfl⟩ := Option.map_eq_some_iff.1 hw
  rw [σ.scan_fullStart]
  exact hs.isCut_behind (hk ▸ hspelling)

lemma taken {f : Unit → Parse β} (hf : Keeps text clean R (Past text clean width) (f ()) out)
    (hw : k.spelling?.map Text.bytes = some width := by rfl) :
    Keeps text clean R (fun σ => σ.kind = k) (next >>= f) out :=
  (takenAs (fun _ hs _ hk _ => past_scan hw hs hk) hf).mono (fun _ h => ⟨trivial, h⟩) fun _ h => h

lemma acceptIf {q₁ q₂ : Parse β} (h₁ : Keeps text clean R (Past text clean width) q₁ out)
    (h₂ : Keeps text clean R K q₂ out)
    (hw : k.spelling?.map Text.bytes = some width := by rfl) :
    Keeps text clean R K (Parse.accept k >>= fun b => if b = true then q₁ else q₂) out :=
  acceptAs (fun _ hs _ hk _ => past_scan hw hs hk) h₁ h₂

lemma expect_ {f : Unit → Parse β} (hf : Keeps text clean R (Past text clean width) (f ()) out)
    (hw : k.spelling?.map Text.bytes = some width := by rfl) :
    Keeps text clean R K (Parse.expect_ k >>= f) out :=
  expectAs (fun _ hs _ hk => past_scan hw hs hk) hf

/-- The token at hand is what it has been read as. -/
lemma rescanned {g : Scanner → Scanner} [Clears g] {f : TokenKind → Parse β}
    (hf : ∀ k, Keeps text clean R (fun σ => σ.kind = k) (f k) out) :
    Keeps text clean R K (rescan g >>= f) out :=
  fun s hs _ hc => hf (g s.scanner).kind { s with scanner := g s.scanner } (Clears.clear hs) rfl hc

end Tokens

/-! ### Nodes -/

section Nodes

variable {form : Form} {start : Nat} {parts : List Part} {flags : NodeFlags}

/-- A node that stops before the token at hand. -/
lemma finish (hstart : IsCut text start)
    (hparts : PartsFit text clean (.form form) parts := by simp [*, askingRoles])
    (hform : form ∉ specialForms := by decide) :
    Keeps text clean R K (Parse.finish form start parts flags) (Sited text clean) := by
  simp only [specialForms, List.mem_cons, List.not_mem_nil, or_false, not_or] at hform
  intro s hs _ _
  refine ⟨hs, sited_ofParts hstart hs.fullStart hparts (fun h => ?_) fun _ h => ?_⟩
  · exact absurd h (by simp [hform])
  · exact absurd h (by simp [hform])

/-- A parameter or a declaration of a variable, with the name that it binds. -/
lemma finishNamed {name : Node} (hname : (Part.under .name parts).head? = some name)
    (hbinds : Binds name) (hstart : IsCut text start)
    (hparts : PartsFit text clean (.form form) parts := by simp [*, askingRoles])
    (hform : form ≠ .jsxExpression := by decide) :
    Keeps text clean R K (Parse.finish form start parts flags) (Sited text clean) := by
  intro s hs _ _
  refine ⟨hs, sited_ofParts hstart hs.fullStart hparts (fun _ => ⟨name, hname, hbinds⟩)
    fun _ h => absurd h (by simp [hform])⟩

lemma ofForm {P : Node → Prop} (h : Keeps text clean R K (Parse.finish form start parts flags) P) :
    Keeps text clean R K (Parse.finish form start parts flags)
      fun n => P n ∧ n.isForm form = true := by
  intro s hs hk hc
  obtain ⟨h₁, h₂⟩ := h s hs hk hc
  exact ⟨h₁, h₂, beq_self_eq_true _⟩

/-- A node over nothing. -/
lemma empty {kind : NodeKind} (hstart : IsCut text start)
    (hparts : PartsFit text clean kind parts := by simp)
    (hkind : ∀ f ∈ specialForms, kind ≠ .form f := by decide) :
    Keeps text clean R K (node kind start start parts flags) (Sited text clean) := by
  intro s hs _ _
  refine ⟨hs, sited_ofParts hstart hstart hparts (fun h => ?_) fun _ h => ?_⟩
  · exact (h.elim (hkind _ (by decide)) (hkind _ (by decide))).elim
  · exact absurd h (hkind _ (by decide))

/-- A token that has been taken as a node. -/
lemma token {k : TokenKind} (hstart : IsCut text start)
    (hparts : PartsFit text clean (.token k) parts := by simp) :
    Keeps text clean R K (pos >>= fun stop => node (.token k) start stop parts flags)
      (Sited text clean) := by
  intro s hs _ _
  refine ⟨hs, sited_ofParts hstart hs.fullStart hparts (fun h => ?_) fun _ h => ?_⟩
  · exact absurd h (by simp)
  · exact absurd h (by simp)

end Nodes

end Keeps

/-! ### Rules -/

namespace Sites

variable {P' : α → Prop}

lemma of (h : Keeps text clean R (fun _ => True) p P) : Sites text clean R p P := ⟨h⟩

/-- A rule that is to make a node notes where it starts. -/
lemma start {f : Nat → Parse α}
    (hf : ∀ q, IsCut text q → Keeps text clean R (fun _ => True) (f q) P) :
    Sites text clean R (pos >>= f) P :=
  ⟨.here fun q hq => (hf q hq).mono (fun _ _ => trivial) fun _ h => h⟩

lemma pure {a : α} (h : P a) : Sites text clean R (Pure.pure a) P := ⟨.pure h⟩

lemma look {p : Parse β} [Peeks p] {f : β → Parse α} (hf : ∀ a, Sites text clean R (f a) P) :
    Sites text clean R (p >>= f) P := ⟨.look fun a => (hf a).keeps⟩

lemma ite {c : Prop} [Decidable c] {p q : Parse α} (hp : Sites text clean R p P)
    (hq : Sites text clean R q P) : Sites text clean R (if c then p else q) P := by
  split
  · exact hp
  · exact hq

lemma lookIf {p : Parse Bool} [Peeks p] {q₁ q₂ : Parse α} (h₁ : Sites text clean R q₁ P)
    (h₂ : Sites text clean R q₂ P) :
    Sites text clean R (p >>= fun b => if b = true then q₁ else q₂) P :=
  look fun _ => ite h₁ h₂

lemma mono (h : Sites text clean R p P) (hv : ∀ a, P a → P' a) :
    Sites text clean R p P' := ⟨h.keeps.mono (fun _ h => h) hv⟩

instance [h : Sites text clean R p P] : Sites text clean R (some <$> p) (IfAny P) where
  keeps s hs hk hc := by
    obtain ⟨h₁, h₂⟩ := h.keeps s hs hk hc
    exact ⟨h₁, ifAny_some.2 h₂⟩

lemma inContext {add drop : Context} (h : Sites text clean R p P) :
    Sites text clean R (withContext add drop p) P where
  keeps s hs hk hc := h.keeps { s with context := s.context.change add drop } hs hk hc

instance [Sites text clean R p P] (add drop : Context) :
    Sites text clean R (withContext add drop p) P := inContext inferInstance

lemma nest {tooDeep : Parse α} (h : Sites text clean R tooDeep P)
    (hp : Sites text clean R p P) : Sites text clean R (nested tooDeep p) P := by
  refine look fun _ => ite (of (.pass fun _ => h.keeps)) ⟨fun s hs hk hc => ?_⟩
  exact hp.keeps { s with depth := s.depth + 1 } hs hk hc

/-- What is taken back has anchored nothing. -/
lemma tried {p : Parse (Option α)} (h : Sites text clean R p (IfAny P)) :
    Sites text clean R (attempt p) (IfAny P) where
  keeps s hs hk hc := by
    cases hrun : (p.run R s).1 with
    | none =>
      rw [run_attempt_of_none hrun]
      exact ⟨hs, ifAny_none⟩
    | some a =>
      rw [run_attempt_of_some hrun] at hc ⊢
      exact h.keeps s hs hk hc

lemma triedUnlessRuledOut {p : Parse (Option α)} (h : Sites text clean R p (IfAny P)) :
    Sites text clean R (unlessRuledOut p) (IfAny P) where
  keeps s hs hk hc := by
    unfold unlessRuledOut at hc ⊢
    dsimp only at hc ⊢
    split at hc
    · next hout =>
      rw [if_pos hout]
      exact ⟨hs, ifAny_none⟩
    · next hout =>
      rw [if_neg hout]
      have hrun := h.tried.keeps s hs hk
      split at hc
      · next hnone =>
        rw [if_pos hnone]
        exact ⟨(hrun hc).1, ifAny_none⟩
      · next hsome =>
        rw [if_neg hsome]
        exact hrun hc

end Sites

/-! ### Leaves -/

section Leaves

instance (k : TokenKind) (payload : Payload) :
    Sites text clean R (leaf (.token k) payload) (Sited text clean) :=
  .start fun _ hq => .pass fun _ => .token hq

instance : Sites text clean R tokenNode (Sited text clean) :=
  .start fun _ hq => .pass fun _ => .pass fun _ => .token hq

instance : Sites text clean R missing (Sited text clean) := .start fun _ hq => .empty hq

instance (k : TokenKind) : Sites text clean R (optionalToken k) (IfAny (Sited text clean)) :=
  .of (.askIf (.sub fun n hn => .pure (by simpa using hn)) (.pure (by simp)))

instance : Sites text clean R literal (Sited text clean) :=
  .of (.pass fun _ => .pass fun _ => .ite (.pass fun _ => .pass fun _ => .last)
    (.pass fun _ => .last))

instance : Sites text clean R word (Sited text clean) := .of (.pass fun _ => .last)

instance : Sites text clean R privateIdentifier (Sited text clean) := .of (.pass fun _ => .last)

instance : Sites text clean R identifierName (Sited text clean) :=
  .of (.askIf .last (.pass fun _ => .last))

instance : Sites text clean R identifier (Sited text clean) :=
  .of (.askIf .last (.askIf (.pass fun _ => .last) (.pass fun _ => .last)))

end Leaves

/-! ### Repetition -/

section Repetition

/-- A value that is replaced as long as a rule makes something of it. -/
lemma Keeps.iterate {g : α → Parse (Option α)} {a : α} (ha : P a)
    (hg : ∀ a, P a → Keeps text clean R (fun _ => True) (g a) (IfAny P)) :
    Keeps text clean R K (iterate g a) P := by
  have upTo (n : Nat) (a : α) (ha : P a) :
      Keeps text clean R (fun _ => True) (iterateUpTo g n a) P := by
    induction n generalizing a with
    | zero => exact .pass fun _ => .pure ha
    | succ n ih =>
      refine .bind (hg a ha) fun o ho => ?_
      cases o with
      | none => exact .pure ha
      | some b => exact ih b (ho b rfl)
  exact .pass fun s => upTo _ a ha

lemma Sites.repeated {p : Parse (Option α)} (h : Keeps text clean R (fun _ => True) p (IfAny P)) :
    Sites text clean R (many p) fun l => ∀ a ∈ l, P a := by
  have upTo (n : Nat) :
      Keeps text clean R (fun _ => True) (manyUpTo p n) fun l => ∀ a ∈ l, P a := by
    induction n with
    | zero => exact .pass fun _ => .pure (by simp)
    | succ n ih =>
      refine .bind h fun o ho => ?_
      cases o with
      | none => exact .pure (by simp)
      | some a =>
        refine .bind ih fun l hl => .pure ?_
        exact List.forall_mem_cons.2 ⟨ho a rfl, hl⟩
  exact .look fun _ => .of (upTo _)

lemma Keeps.listFrom {start : Nat} {nodes : List Node} {ok : Node → Prop} {f : NodeList → Parse β}
    (hn : ∀ n ∈ nodes, ok n) (hf : ∀ l, ListOf text ok l → Keeps text clean R K (f l) out) :
    Keeps text clean R K (Parse.listFrom start nodes >>= f) out :=
  fun s hs hk hc =>
    hf ⟨nodes, { pos := start, stop := s.scanner.fullStart }⟩ ⟨hn, hs.fullStart⟩ s hs hk hc

lemma Keeps.listFrom? {start : Nat} {nodes : List Node} {ok : Node → Prop}
    {f : Option NodeList → Parse β} (hn : ∀ n ∈ nodes, ok n)
    (hf : ∀ o, IfAny (ListOf text ok) o → Keeps text clean R K (f o) out) :
    Keeps text clean R K (Parse.listFrom? start nodes >>= f) out := by
  unfold Parse.listFrom?
  cases nodes with
  | nil => exact hf none ifAny_none
  | cons n nodes =>
    change Keeps text clean R K ((Parse.listFrom start (n :: nodes) >>= fun l => _) >>= f) out
    rw [bind_assoc]
    exact listFrom hn fun l hl => hf (some l) (ifAny_some.2 hl)

lemma Keeps.lastFrom? {start : Nat} {nodes : List Node} (hn : ∀ n ∈ nodes, Sited text clean n) :
    Keeps text clean R K (Parse.listFrom? start nodes) (IfAny (SitedList text clean)) := by
  rw [← bind_pure (Parse.listFrom? start nodes)]
  exact listFrom? hn fun o ho => .pure ho

/-- A part behind a token, if the token is there. -/
instance (k : TokenKind) [Sites text clean R p P] :
    Sites text clean R
      (accept k >>= fun b => if b = true then p >>= fun a => pure (some a) else pure none)
      (IfAny P) :=
  .of (.askIf (.sub fun _ ha => .pure (ifAny_some.2 ha)) (.pure ifAny_none))

lemma behind_sites (k : TokenKind) (h : Sites text clean R p P) :
    Sites text clean R (behind k p) (IfAny P) := by
  unfold behind
  infer_instance

instance (k : TokenKind) [Sites text clean R p P] :
    Sites text clean R (behind k p) (IfAny P) := behind_sites k inferInstance

variable {element : Parse Node} {close : TokenKind} {ok : Node → Prop}

instance [Sites text clean R element ok] :
    Sites text clean R (commaList close element) (ListOf text ok) := by
  have upTo (n : Nat) (trailing : Bool) :
      Keeps text clean R (fun _ => True) (elementsUpTo close element n trailing)
        fun x => ∀ n ∈ x.1, ok n := by
    induction n generalizing trailing with
    | zero => exact .pass fun _ => .pure (by simp)
    | succ n ih =>
      refine .askIf (.pure (by simp)) (.pass fun before => .sub fun first hfirst => ?_)
      refine .pass fun x => ?_
      cases x with
      | comma =>
        exact .bind (ih true) fun rest hrest => .pure (List.forall_mem_cons.2 ⟨hfirst, hrest⟩)
      | closed => exact .pure (List.forall_mem_singleton.2 hfirst)
      | broken giveUp =>
        cases giveUp with
        | true => exact .pure (List.forall_mem_singleton.2 hfirst)
        | false =>
          exact .bind (ih false) fun rest hrest => .pure (List.forall_mem_cons.2 ⟨hfirst, hrest⟩)
  refine .start fun start _ => .pass fun s => .bind (upTo _ false) fun x hx => ?_
  exact .here fun stop hstop => .pure ⟨hx, hstop⟩

instance {stops : List TokenKind} {element : Parse (Option Node)}
    [Sites text clean R element (IfAny ok)] :
    Sites text clean R (listUntil stops element) (ListOf text ok) := by
  have hbefore : Keeps text clean R (fun _ => True) (elementBefore stops element)
      (IfAny (IfAny ok)) := by
    refine .askIf (.pure ifAny_none) (.pass fun before => .sub fun _ hfound => ?_)
    have hsome := ifAny_some.2 hfound
    exact .pass fun start => .pass fun b => .ite (.pass fun _ => .pass fun _ => .pure hsome)
      (.pure hsome)
  refine .start fun start _ => .bind (Sites.repeated hbefore).keeps fun found hfound => ?_
  rw [← bind_pure (listFrom start _)]
  refine .listFrom (fun n hn => ?_) fun l hl => .pure hl
  obtain ⟨o, ho, hon⟩ := List.mem_filterMap.1 hn
  exact hfound o ho n hon

/-- A list that starts where it is read, behind a delimiter. -/
lemma Keeps.opened {p : Parse NodeList} {P : NodeList → Prop} {f : NodeList → Parse β}
    [hp : Sites text clean R p P] (hpos : ∀ s, (p.run R s).1.pos = s.scanner.fullStart)
    (hf : ∀ l, P l → Delimited text clean l → Keeps text clean R (fun _ => True) (f l) out) :
    Keeps text clean R (Past text clean 1) (p >>= f) out := by
  refine bind (P := fun l => P l ∧ Delimited text clean l) ?_ fun l hl => hf l hl.1 hl.2
  intro s hs hk hc
  obtain ⟨h₁, h₂⟩ := hp.keeps s hs trivial hc
  exact ⟨h₁, h₂, fun h => hpos s ▸ hk h⟩

lemma Sites.enclosed {opening : TokenKind} [Sites text clean R element ok]
    (hw : opening.spelling?.map Text.bytes = some 1 := by rfl) :
    Sites text clean R (enclosedList opening close element)
      fun l => ListOf text ok l ∧ Delimited text clean l :=
  .of (.expect_ (.opened (fun _ => rfl) fun _ hl ho => .pass fun _ => .pure ⟨hl, ho⟩) hw)

lemma Keeps.enclosed {opening : TokenKind} {f : NodeList → Parse β} [Sites text clean R element ok]
    (hf : ∀ l, ListOf text ok l → Delimited text clean l →
      Keeps text clean R (fun _ => True) (f l) out)
    (hw : opening.spelling?.map Text.bytes = some 1 := by rfl) :
    Keeps text clean R K (enclosedList opening close element >>= f) out :=
  bind ((Sites.enclosed hw).keeps.mono (fun _ _ => trivial) fun _ h => h) fun l hl => hf l hl.1 hl.2

instance [h : Sites text clean R element ok] :
    Sites text clean R (separated element) fun l => ∀ n ∈ l, ok n := by
  have hrest := Sites.repeated (behind_sites .comma h).keeps
  exact .of (.sub fun first hfirst => .bind hrest.keeps fun rest hrest =>
    .pure (List.forall_mem_cons.2 ⟨hfirst, hrest⟩))

end Repetition

/-! ### Goals -/

/-- Goals are anchored. -/
class SitesGoals (text : Source) (clean : Prop) (R : Runner) : Prop where
  reach?_sites (g : Goal) : Sites text clean R (reach? g) (IfAny (Sited text clean))

section Goals

variable [SitesGoals text clean R]

instance (g : Goal) : Sites text clean R (reach? g) (IfAny (Sited text clean)) :=
  SitesGoals.reach?_sites g

instance (g : Goal) : Sites text clean R (reach g) (Sited text clean) := by
  refine .of (.sub fun o ho => ?_)
  cases o with
  | some n => exact .pure (ho n rfl)
  | none => exact .last

end Goals

end EstreeLint.Grammar
