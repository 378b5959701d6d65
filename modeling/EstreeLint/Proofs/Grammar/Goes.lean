import EstreeLint.Proofs.Grammar.Spelled

/-!
What a rule of the grammar builds, told step by step.

`Goes text R m ns K p out val` is about a run of `p` that reports no error. If the nodes `ns` have
been built since the mark `m` when it starts, and `K` holds of the scanner, then the nodes
`out a` have been built since `m` when it gives `a`, and `val a` holds. A rule that starts at `m`
itself, with nothing built yet, `Builds` the nodes in what it gives.
-/

namespace EstreeLint.Grammar

open Parse
open Estree (Usable Fits)

/-! ### Nodes in a result -/

/-- A type of results that hold nodes, in the order of the text. -/
class HasNodes (α : Type) where
  nodesIn : α → List Node

export HasNodes (nodesIn)

namespace HasNodes

variable {α β : Type} [HasNodes α] [HasNodes β]

instance : HasNodes Node := ⟨fun n => [n]⟩

instance : HasNodes (Option α) := ⟨fun o => o.elim [] nodesIn⟩

instance : HasNodes NodeList := ⟨NodeList.nodes⟩

instance : HasNodes (List α) := ⟨fun l => l.flatMap nodesIn⟩

instance : HasNodes (α × β) := ⟨fun x => nodesIn x.1 ++ nodesIn x.2⟩

instance : HasNodes Part := ⟨Part.bare⟩

instance : HasNodes Unit := ⟨fun _ => []⟩

instance : HasNodes Bool := ⟨fun _ => []⟩

instance : HasNodes Separation := ⟨fun _ => []⟩

@[simp] lemma nodesIn_node (n : Node) : nodesIn n = [n] := rfl

@[simp] lemma nodesIn_none : nodesIn (none : Option α) = [] := rfl

@[simp] lemma nodesIn_some (a : α) : nodesIn (some a) = nodesIn a := rfl

@[simp] lemma nodesIn_nodeList (l : NodeList) : nodesIn l = l.nodes := rfl

@[simp] lemma nodesIn_list (l : List α) : nodesIn l = l.flatMap nodesIn := rfl

@[simp] lemma nodesIn_prod (x : α × β) : nodesIn x = nodesIn x.1 ++ nodesIn x.2 := rfl

@[simp] lemma nodesIn_part (p : Part) : nodesIn p = p.bare := rfl

@[simp] lemma nodesIn_unit (u : Unit) : nodesIn u = [] := rfl

@[simp] lemma nodesIn_bool (b : Bool) : nodesIn b = [] := rfl

@[simp] lemma nodesIn_separation (x : Separation) : nodesIn x = [] := rfl

@[simp] lemma flatMap_nodesIn (l : List Node) : l.flatMap nodesIn = l := by
  induction l with
  | nil => rfl
  | cons n l ih => simp [List.flatMap_cons, ih]

@[simp] lemma nodesIn_option_node (o : Option Node) : nodesIn o = o.toList := by cases o <;> rfl

lemma nodesIn_options (l : List (Option Node)) : nodesIn l = l.filterMap id := by
  induction l with
  | nil => rfl
  | cons o l ih => cases o <;> simp_all

@[simp] lemma nodesIn_option_list (o : Option NodeList) :
    nodesIn o = (o.map (·.nodes)).getD [] := by
  cases o <;> rfl

end HasNodes

/-! ### The judgement -/

variable {α β : Type} {text : Source} {R : Runner} {m : Mark} {ns ms : List Node}
  {K K' : Scanner → Prop} {p : Parse α} {f : α → Parse β} {out : β → List Node} {val : β → Prop}

def Goes (text : Source) (R : Runner) (m : Mark) (ns : List Node) (K : Scanner → Prop)
    (p : Parse α) (out : α → List Node) (val : α → Prop) : Prop :=
  ValidEscapes text → ∀ s, Since text m ns s → K s.scanner → (p.run R s).2.errors = [] →
    Since text m (out (p.run R s).1) (p.run R s).2 ∧ val (p.run R s).1

/-- Nothing is known of the scanner. -/
@[simp] def Anywhere (_ : Scanner) : Prop := True

/-- The token at hand is of the given kind. -/
@[simp] def At (k : TokenKind) (σ : Scanner) : Prop := σ.kind = k

/-- The rule builds the nodes in what it gives, from where it starts. -/
class Builds [HasNodes α] (text : Source) (R : Runner) (K : Scanner → Prop) (p : Parse α)
    (val : α → Prop) : Prop where
  goes (m : Mark) : Goes text R m [] (fun σ => K σ ∧ σ.fullStart = m.pos) p nodesIn val

/-- What a run has reported it reports to its end. -/
lemma clean_of_clean {s : State} {p : Parse α} {f : α → Parse β}
    (h : ((p >>= f).run R s).2.errors = []) : (p.run R s).2.errors = [] :=
  List.suffix_nil.1 (h ▸ ((f _).extends_run R _).errors)

namespace Goes

lemma mono {p : Parse β} (h : Goes text R m ns K p out val) {val' : β → Prop}
    (hK : ∀ σ, K' σ → K σ) (hv : ∀ b, val b → val' b) : Goes text R m ns K' p out val' := by
  intro he s hs hk hc
  obtain ⟨h₁, h₂⟩ := h he s hs (hK _ hk) hc
  exact ⟨h₁, hv _ h₂⟩

/-- What holds wherever the scanner is. -/
lemma anywhere {p : Parse β} (h : Goes text R m ns Anywhere p out val) :
    Goes text R m ns K p out val := h.mono (fun _ _ => trivial) fun _ h => h

lemma pure {b : β} (h : out b = ns) (hv : val b) : Goes text R m ns K (pure b) out val := by
  intro _ s hs _ _
  exact ⟨h ▸ hs, hv⟩

lemma pureThen {a : α} (h : Goes text R m ns K (f a) out val) :
    Goes text R m ns K (Pure.pure a >>= f) out val := h

/-- Nodes that a rule has built and does not give back. -/
lemma drop {b : β} (h : (out b).Sublist ns) (hv : val b) :
    Goes text R m ns K (Pure.pure b) out val := by
  intro _ s hs _ _
  exact ⟨hs.sublist h, hv⟩

/-- Nodes that have been built may be forgotten. -/
lemma forget (ms : List Node) {p : Parse β} (h : Goes text R m ms K p out val)
    (hm : ms.Sublist ns := by simp) : Goes text R m ns K p out val :=
  fun he s hs hk hc => h he s (hs.sublist hm) hk hc

/-- **A rule inside another.** What it builds comes behind what has been built. -/
lemma sub [HasNodes α] {ok : α → Prop} (hp : Builds text R K' p ok)
    (hf : ∀ a, ok a → Goes text R m (ns ++ nodesIn a) Anywhere (f a) out val)
    (hK : ∀ σ, K σ → K' σ := by intros; simp_all) : Goes text R m ns K (p >>= f) out val := by
  intro he s hs hk hc
  obtain ⟨h, ha⟩ := hp.goes s.mark he s (.refl hs.sound) ⟨hK _ hk, rfl⟩ (clean_of_clean hc)
  exact hf _ ha he _ (hs.trans h) trivial hc

/-- Two steps since the same mark. -/
lemma bind {view : α → List Node} {ok : α → Prop} (hp : Goes text R m ns K p view ok)
    (hf : ∀ a, ok a → Goes text R m (view a) Anywhere (f a) out val) :
    Goes text R m ns K (p >>= f) out val := by
  intro he s hs hk hc
  obtain ⟨h, ha⟩ := hp he s hs hk (clean_of_clean hc)
  exact hf _ ha he _ h trivial hc

/-- A fact that what is known of the scanner tells. -/
lemma know {p : Parse β} {Q : Prop} (hK : ∀ σ, K σ → Q) (h : Q → Goes text R m ns K p out val) :
    Goes text R m ns K p out val :=
  fun he s hs hk hc => h (hK _ hk) he s hs hk hc

/-- A rule at the end of another that has built nothing yet. -/
lemma last [HasNodes β] {p : Parse β} {ok : β → Prop} (hp : Builds text R K' p ok)
    (hv : ∀ b, ok b → val b := by exact fun _ h => h)
    (hK : ∀ σ, K σ → K' σ ∧ σ.fullStart = m.pos := by intros; simp_all) :
    Goes text R m [] K p nodesIn val := (hp.goes m).mono hK hv

end Goes

/-! ### Looking -/

/-- The step only looks at the state, or reports what it finds. -/
class Peeks (p : Parse α) : Prop where
  leaves (R : Runner) (s : State) :
    ∃ errors notArrow, (p.run R s).2 = { s with errors := errors, notArrow := notArrow }

namespace Peeks

variable [Peeks p] (R : Runner) (s : State)

lemma scanner_run : (p.run R s).2.scanner = s.scanner := by
  obtain ⟨_, _, h⟩ := leaves (p := p) R s
  rw [h]

lemma taken_run : (p.run R s).2.taken = s.taken := by
  obtain ⟨_, _, h⟩ := leaves (p := p) R s
  rw [h]

lemma arena_run : (p.run R s).2.arena = s.arena := by
  obtain ⟨_, _, h⟩ := leaves (p := p) R s
  rw [h]

end Peeks

/-- The step only looks at the state, and what it gives tells `P` of the scanner. -/
class Tells (p : Parse Bool) (P : outParam (Scanner → Prop)) : Prop extends Peeks p where
  tells (R : Runner) (s : State) : (p.run R s).1 = true → P s.scanner

section Peeks

instance : Peeks current := ⟨fun _ _ => ⟨_, _, rfl⟩⟩

instance (a : α) : Peeks (pure a) := ⟨fun _ _ => ⟨_, _, rfl⟩⟩

instance (p : Parse α) (f : α → Parse β) [Peeks p] [∀ a, Peeks (f a)] : Peeks (p >>= f) where
  leaves R s := by
    obtain ⟨errors, notArrow, h⟩ := Peeks.leaves (p := p) R s
    obtain ⟨errors', notArrow', h'⟩ := Peeks.leaves (p := f (p.run R s).1) R (p.run R s).2
    exact ⟨errors', notArrow', by rw [run_bind, h', h]⟩

lemma Peeks.andThen {p : Parse α} {f : α → Parse β} [Peeks p] (h : ∀ a, Peeks (f a)) :
    Peeks (p >>= f) := inferInstance

instance (p : Parse α) : Peeks (lookAhead p) :=
  ⟨fun R s => ⟨s.errors, _, congrArg Prod.snd (run_lookAhead p R s)⟩⟩

instance : Peeks token := by unfold token; infer_instance

instance : Peeks tokenStart := by unfold tokenStart; infer_instance

instance : Peeks pos := by unfold pos; infer_instance

instance : Peeks afterLineBreak := by unfold afterLineBreak; infer_instance

instance : Peeks sameLine := by unfold sameLine; infer_instance

instance : Peeks tokenValue := by unfold tokenValue; infer_instance

instance : Peeks isJsx := by unfold isJsx; infer_instance

instance (f : Context → Bool) : Peeks (inContext f) := by unfold inContext; infer_instance

instance (start length : Nat) (fault : SyntaxFault) : Peeks (errorAt start length fault) where
  leaves R s := by
    by_cases h : s.errors.head?.any (·.start == start) = true
    · exact ⟨s.errors, s.notArrow, if_pos h⟩
    · exact ⟨_ :: s.errors, s.notArrow, if_neg h⟩

instance (fault : SyntaxFault) : Peeks (error fault) := by unfold error; infer_instance

instance : Peeks errorCount := by unfold errorCount; infer_instance

lemma scanner_giveUp (R : Runner) (s : State) : (giveUp.run R s).2.scanner = s.scanner.halt :=
  congrArg Scanner.halt (Peeks.scanner_run (p := error .nestingTooDeep) R s)

instance : Peeks peek := by unfold peek; infer_instance

instance (priority := low) (p : Parse Bool) [Peeks p] : Tells p fun _ => True where
  tells _ _ _ := trivial

instance (k : TokenKind) : Tells (isAt k) fun σ => σ.kind = k where
  leaves _ _ := ⟨_, _, rfl⟩
  tells R s h := by simpa using (show (s.scanner.kind == k) = true from h)

instance (ks : List TokenKind) : Tells (atAny ks) fun σ => σ.kind ∈ ks where
  leaves _ _ := ⟨_, _, rfl⟩
  tells R s h := by simpa using (show ks.contains s.scanner.kind = true from h)

instance : Tells atWord fun σ => σ.kind.isIdentifierOrKeyword = true where
  leaves _ _ := ⟨_, _, rfl⟩
  tells _ _ h := h

lemma run_and (p q : Parse Bool) (R : Runner) (s : State) :
    (p <&&> q).run R s = if (p.run R s).1 = true then q.run R (p.run R s).2 else p.run R s := by
  change (p >>= fun b => match b with | true => q | false => pure b).run R s = _
  rw [run_bind]
  cases h : (p.run R s).1 with
  | true => rfl
  | false =>
    rw [if_neg (by simp)]
    exact Prod.ext h.symm rfl

lemma run_or (p q : Parse Bool) (R : Runner) (s : State) :
    (p <||> q).run R s = if (p.run R s).1 = true then p.run R s else q.run R (p.run R s).2 := by
  change (p >>= fun b => match b with | true => pure b | false => q).run R s = _
  rw [run_bind]
  cases h : (p.run R s).1 with
  | true =>
    rw [if_pos rfl]
    exact Prod.ext h.symm rfl
  | false => rfl

instance (p q : Parse Bool) {P Q : Scanner → Prop} [Tells p P] [Tells q Q] :
    Tells (p <&&> q) fun σ => P σ ∧ Q σ where
  leaves R s := by
    rw [run_and]
    split
    · exact Peeks.leaves (p := p >>= fun _ => q) R s
    · exact Peeks.leaves R s
  tells R s h := by
    rw [run_and] at h
    split at h
    · next hp =>
      have hq := Tells.tells R _ h
      rw [Peeks.scanner_run] at hq
      exact ⟨Tells.tells R s hp, hq⟩
    · next hp => exact absurd h hp

instance (p q : Parse Bool) {P Q : Scanner → Prop} [Tells p P] [Tells q Q] :
    Tells (p <||> q) fun σ => P σ ∨ Q σ where
  leaves R s := by
    rw [run_or]
    split
    · exact Peeks.leaves R s
    · exact Peeks.leaves (p := p >>= fun _ => q) R s
  tells R s h := by
    rw [run_or] at h
    split at h
    · next hp => exact .inl (Tells.tells R s hp)
    · have hq := Tells.tells R _ h
      rw [Peeks.scanner_run] at hq
      exact .inr hq

instance (b : Bool) (p q : Parse α) [Peeks p] [Peeks q] : Peeks (if b = true then p else q) := by
  split <;> infer_instance

/-- What is asked only if something else is the case. -/
lemma tells_guarded {p q : Parse Bool} {P : Scanner → Prop} [Tells p P] [Peeks q] :
    Tells (p >>= fun b => if b = true then q else pure false) P where
  leaves := Peeks.leaves
  tells R s h := by
    by_cases hp : (p.run R s).1 = true
    · exact Tells.tells R s hp
    · rw [run_bind, if_neg hp] at h
      cases h

instance : Tells atIdentifier fun σ => σ.kind.isIdentifierOrKeyword = true where
  leaves R s := by
    unfold atIdentifier
    rw [run_bind]
    split <;> exact Peeks.leaves R s
  tells R s h := by
    unfold atIdentifier at h
    rw [run_bind] at h
    have hk : (token.run R s).1 = s.scanner.kind := rfl
    rw [hk] at h
    split at h
    · next e => rw [e]; rfl
    · next e => rw [e]; rfl
    · next e => rw [e]; rfl
    · exact (Bool.and_eq_true_iff.1 h).1

instance : Tells atLiteralName
    fun σ => σ.kind.isIdentifierOrKeyword = true ∨
      σ.kind ∈ [TokenKind.stringLiteral, .numericLiteral, .bigIntLiteral] := by
  unfold atLiteralName
  infer_instance

instance (start : Nat) (nodes : List Node) : Peeks (listFrom start nodes) := by
  unfold listFrom
  infer_instance

instance (start : Nat) (nodes : List Node) : Peeks (listFrom? start nodes) := by
  unfold listFrom?
  infer_instance

instance : Peeks atStatementEnd := by unfold atStatementEnd; infer_instance

instance : Peeks identifierFollowsOnLine := by unfold identifierFollowsOnLine; infer_instance

end Peeks

/-! ### Steps -/

namespace Goes

lemma look [Peeks p] (hf : ∀ a, Goes text R m ns K (f a) out val) :
    Goes text R m ns K (p >>= f) out val := by
  intro he s hs hk hc
  have hscan := Peeks.scanner_run (p := p) R s
  exact hf _ he _ (hs.of_eq hscan (Peeks.taken_run R s)) (hscan ▸ hk) hc

lemma token {f : TokenKind → Parse β}
    (hf : ∀ k, Goes text R m ns (fun σ => K σ ∧ σ.kind = k) (f k) out val) :
    Goes text R m ns K (Parse.token >>= f) out val :=
  fun he s hs hk hc => hf _ he s hs ⟨hk, rfl⟩ hc

lemma ask {p : Parse Bool} {P : Scanner → Prop} [Tells p P] {f : Bool → Parse β}
    (hf : ∀ b, Goes text R m ns (fun σ => K σ ∧ (b = true → P σ)) (f b) out val) :
    Goes text R m ns K (p >>= f) out val := by
  intro he s hs hk hc
  have hscan := Peeks.scanner_run (p := p) R s
  refine hf _ he _ (hs.of_eq hscan (Peeks.taken_run R s)) ⟨hscan ▸ hk, fun h => ?_⟩ hc
  rw [hscan]
  exact Tells.tells R s h

/-- A rule that is to build a node notes where it starts. -/
lemma start {f : Nat → Parse β} (hf : Goes text R m ns K (f m.pos) out val)
    (hK : ∀ σ, K σ → σ.fullStart = m.pos := by intros; simp_all) :
    Goes text R m ns K (pos >>= f) out val := by
  intro he s hs hk hc
  have hrun : (pos >>= f).run R s = (f m.pos).run R s := by
    rw [← hK _ hk]
    rfl
  rw [hrun] at hc ⊢
  exact hf he s hs hk hc

/-- The token at hand is taken and belongs to no node. -/
lemma takeWith {g : Scanner → Scanner} [Scanner.Reading g] {f : Unit → Parse β}
    (hg : ∀ σ, σ.Sound text → ValidEscapes text → K σ →
      (g σ).Sound text ∧ (g σ).fullStart = σ.tokenEnd)
    (hf : Goes text R m ns (fun σ' => ∃ σ, K σ ∧ σ' = g σ) (f ()) out val)
    (hK : ∀ σ, K σ → σ.kind ≠ .endOfFile := by simp <;> grind) :
    Goes text R m ns K (Parse.takeWith g >>= f) out val := by
  intro he s hs hk hc
  obtain ⟨hsound, hfull⟩ := hg _ hs.sound he hk
  have hskip : Spelled text s.scanner.fullStart [] [s.atHand] s.atHand.stop :=
    .skip (hs.behind (hK _ hk)) (.nil _)
  have hnext := hs.take hsound hfull hskip
  rw [List.append_nil] at hnext
  exact hf he _ hnext ⟨_, hk, rfl⟩ hc

lemma scan_step {σ : Scanner} (h : σ.Sound text) (he : ValidEscapes text) :
    σ.scan.Sound text ∧ σ.scan.fullStart = σ.tokenEnd := ⟨h.scan he, σ.scan_fullStart⟩

lemma next {f : Unit → Parse β} (hf : Goes text R m ns Anywhere (f ()) out val)
    (hK : ∀ σ, K σ → σ.kind ≠ .endOfFile := by simp <;> grind) :
    Goes text R m ns K (Parse.next >>= f) out val :=
  takeWith (fun _ h he _ => scan_step h he) hf.anywhere hK

/-- The token behind the one at hand, where something is known of it. -/
lemma next' (K' : Scanner → Prop) {f : Unit → Parse β} (hf : Goes text R m ns K' (f ()) out val)
    (hK' : ∀ σ, K σ → K' σ.scan) (hK : ∀ σ, K σ → σ.kind ≠ .endOfFile := by simp <;> grind) :
    Goes text R m ns K (Parse.next >>= f) out val := by
  refine takeWith (fun _ h he _ => scan_step h he) (hf.mono ?_ fun _ h => h) hK
  rintro _ ⟨σ, hσ, rfl⟩
  exact hK' σ hσ

lemma peek {f : TokenKind → Parse β}
    (hf : ∀ k, Goes text R m ns (fun σ => K σ ∧ σ.scan.kind = k) (f k) out val) :
    Goes text R m ns K (Parse.peek >>= f) out val := by
  intro he s hs hk hc
  have hscan := Peeks.scanner_run (p := Parse.peek) R s
  exact hf _ he _ (hs.of_eq hscan (Peeks.taken_run R s)) (hscan ▸ ⟨hk, rfl⟩) hc

lemma errors_errorAt_ne_nil {start length : Nat} {fault : SyntaxFault} (s : State) :
    ((Parse.errorAt start length fault).run R s).2.errors ≠ [] := by
  change State.errors (if _ then _ else _) ≠ []
  split
  · next h =>
    intro e
    simp [e] at h
  · simp

lemma errors_error_ne_nil {fault : SyntaxFault} (s : State) :
    ((Parse.error fault).run R s).2.errors ≠ [] := errors_errorAt_ne_nil (R := R) s

lemma errors_giveUp_ne_nil (s : State) : (Parse.giveUp.run R s).2.errors ≠ [] := by
  have h : ((Parse.error .nestingTooDeep).run R s).2.errors ≠ [] := errors_error_ne_nil s
  exact h

/-- A run without errors never gives up. -/
lemma giveUp {f : Unit → Parse β} : Goes text R m ns K (Parse.giveUp >>= f) out val := by
  intro _ s _ _ hc
  exact absurd (clean_of_clean hc) (errors_giveUp_ne_nil s)

/-- An error is never reported in a run without errors. -/
lemma error {fault : SyntaxFault} {f : Unit → Parse β} :
    Goes text R m ns K (Parse.error fault >>= f) out val := by
  intro _ s _ _ hc
  exact absurd (clean_of_clean hc) (errors_error_ne_nil s)

lemma ite {c : Prop} [Decidable c] {p q : Parse β} (hp : c → Goes text R m ns K p out val)
    (hq : ¬ c → Goes text R m ns K q out val) :
    Goes text R m ns K (if c then p else q) out val := by
  split
  · exact hp ‹_›
  · exact hq ‹_›

lemma askIf {p : Parse Bool} {P : Scanner → Prop} [Tells p P] {q₁ q₂ : Parse β}
    (h₁ : Goes text R m ns (fun σ => K σ ∧ P σ) q₁ out val)
    (h₂ : Goes text R m ns K q₂ out val) :
    Goes text R m ns K (p >>= fun b => if b = true then q₁ else q₂) out val := by
  refine ask fun b => .ite (fun hb => ?_) fun _ => ?_
  · exact h₁.mono (fun σ h => ⟨h.1, h.2 hb⟩) fun _ h => h
  · exact h₂.mono (fun σ h => h.1) fun _ h => h

lemma accept_missing {k : TokenKind} {f : Bool → Parse β} (hK : ∀ σ, K σ → σ.kind ≠ k)
    (hf : Goes text R m ns K (f false) out val) :
    Goes text R m ns K (Parse.accept k >>= f) out val := by
  intro he s hs hk hc
  have hrun : (Parse.accept k >>= f).run R s = (f false).run R s := by
    have hb : ¬ (s.scanner.kind == k) = true := by simpa using hK _ hk
    change ((if (s.scanner.kind == k) = true then _ else _ : Parse Bool) >>= f).run R s = _
    rw [if_neg hb]
    rfl
  rw [hrun] at hc ⊢
  exact hf he s hs hk hc

lemma accept {k : TokenKind} {f : Bool → Parse β}
    (ht : Goes text R m ns Anywhere (f true) out val)
    (hf : Goes text R m ns (fun σ => K σ ∧ σ.kind ≠ k) (f false) out val)
    (hk : k ≠ .endOfFile := by decide) :
    Goes text R m ns K (Parse.accept k >>= f) out val := by
  intro he s hs hK hc
  by_cases h : s.scanner.kind = k
  · have hrun : (Parse.accept k >>= f).run R s = (Parse.next >>= fun _ => f true).run R s := by
      have hb : (s.scanner.kind == k) = true := by simpa using h
      change ((if (s.scanner.kind == k) = true then _ else _ : Parse Bool) >>= f).run R s = _
      rw [if_pos hb]
      rfl
    rw [hrun] at hc ⊢
    exact (next (K := At k) ht (fun _ e => e ▸ hk)) he s hs h hc
  · exact accept_missing (fun _ h => h.2) hf he s hs ⟨hK, h⟩ hc

lemma acceptIf {k : TokenKind} {p q : Parse β} (hp : Goes text R m ns Anywhere p out val)
    (hq : Goes text R m ns K q out val) (hk : k ≠ .endOfFile := by decide) :
    Goes text R m ns K (Parse.accept k >>= fun b => if b = true then p else q) out val :=
  accept hp (hq.mono (fun _ h => h.1) fun _ h => h) hk

/-- A token that must be there is there. -/
lemma expect {k : TokenKind} {f : Bool → Parse β}
    (h : Goes text R m ns Anywhere (f true) out val) (hk : k ≠ .endOfFile := by decide) :
    Goes text R m ns K (Parse.expect k >>= f) out val := by
  unfold Parse.expect
  rw [bind_assoc]
  refine accept h ?_ hk
  change Goes text R m ns _ (Parse.error _ >>= fun _ => f false) out val
  exact error

lemma expect_ {k : TokenKind} {f : Unit → Parse β}
    (h : Goes text R m ns Anywhere (f ()) out val) (hk : k ≠ .endOfFile := by decide) :
    Goes text R m ns K (Parse.expect_ k >>= f) out val :=
  expect (f := fun _ => f ()) h hk

/-- A token that is not there is reported. -/
lemma expect_absent {k : TokenKind} {f : Bool → Parse β} (hK : ∀ σ, K σ → σ.kind ≠ k) :
    Goes text R m ns K (Parse.expect k >>= f) out val := by
  unfold Parse.expect
  rw [bind_assoc]
  refine accept_missing hK ?_
  change Goes text R m ns K (Parse.error _ >>= fun _ => f false) out val
  exact error

lemma expect_missing {k : TokenKind} {f : Unit → Parse β} (hK : ∀ σ, K σ → σ.kind ≠ k) :
    Goes text R m ns K (Parse.expect_ k >>= f) out val :=
  expect_absent (f := fun _ => f ()) hK

/-- Two ways to build the same part, and what follows either. -/
lemma choose [HasNodes α] {c : Prop} [Decidable c] {p q : Parse α} {ok : α → Prop}
    (hp : c → Builds text R K p ok) (hq : ¬ c → Builds text R K q ok)
    (hf : ∀ a, ok a → Goes text R m (ns ++ nodesIn a) Anywhere (f a) out val) :
    Goes text R m ns K (if c then p >>= f else q >>= f) out val := by
  split
  · exact sub (hp ‹_›) hf
  · exact sub (hq ‹_›) hf

end Goes

/-! ### Rules -/

namespace Builds

variable [HasNodes α] [HasNodes β] {ok : α → Prop} {ok' : β → Prop}

lemma mono {val' : α → Prop} (h : Builds text R K p ok) (hv : ∀ a, ok a → val' a)
    (hK : ∀ σ, K' σ → K σ := by intros; simp_all) : Builds text R K' p val' :=
  ⟨fun m => (h.goes m).mono (fun σ hσ => ⟨hK σ hσ.1, hσ.2⟩) hv⟩

lemma pure {a : α} (h : nodesIn a = [] := by rfl) (hv : ok a) :
    Builds text R K (pure a) ok := ⟨fun _ => .pure h hv⟩

lemma map {g : α → β} (h : Builds text R K p ok) (hn : ∀ a, nodesIn (g a) = nodesIn a)
    (hv : ∀ a, ok a → ok' (g a)) : Builds text R K (g <$> p) ok' := by
  refine ⟨fun m => ?_⟩
  rw [map_eq_pure_bind]
  exact .sub h (fun a ha => .pure (by simp [hn]) (hv a ha)) fun σ hσ => hσ.1

lemma some (h : Builds text R K p ok) :
    Builds text R K (Option.some <$> p) fun o => ∃ a, o = Option.some a ∧ ok a :=
  h.map (fun _ => rfl) fun a ha => ⟨a, rfl, ha⟩

lemma opt (h : Builds text R K p ok) :
    Builds text R K (Option.some <$> p) fun o => ∀ a ∈ o, ok a :=
  h.map (fun _ => rfl) fun a ha => by simpa using ha

/-- A step that leaves the scanner and the tokens as they are on both sides of a rule. -/
lemma ofSame {p' : Parse α} (h : Builds text R K p ok)
    (hrun : ∀ s : State, ∃ s₀, s₀.scanner = s.scanner ∧ s₀.taken = s.taken ∧
      (p'.run R s).1 = (p.run R s₀).1 ∧ (p'.run R s).2.scanner = (p.run R s₀).2.scanner ∧
      (p'.run R s).2.taken = (p.run R s₀).2.taken ∧
      (p'.run R s).2.errors = (p.run R s₀).2.errors) : Builds text R K p' ok := by
  refine ⟨fun m he s hs hk hc => ?_⟩
  obtain ⟨s₀, h₁, h₂, h₃, h₄, h₅, h₆⟩ := hrun s
  obtain ⟨h, ha⟩ := h.goes m he s₀ (hs.of_eq h₁ h₂) (h₁ ▸ hk) (h₆ ▸ hc)
  rw [h₃]
  exact ⟨h.of_eq h₄ h₅, ha⟩

lemma withContext (add drop : Context) (h : Builds text R K p ok) :
    Builds text R K (Parse.withContext add drop p) ok :=
  h.ofSame fun s =>
    ⟨{ s with context := s.context.change add drop }, rfl, rfl, rfl, rfl, rfl, rfl⟩

lemma deeper (h : Builds text R K p ok) : Builds text R K (Parse.deeper p) ok :=
  h.ofSame fun s => ⟨{ s with depth := s.depth + 1 }, rfl, rfl, rfl, rfl, rfl, rfl⟩

lemma nested {tooDeep : Parse α} (h : Builds text R K p ok) :
    Builds text R K (Parse.nested tooDeep p) ok := by
  refine ⟨fun m => ?_⟩
  unfold Parse.nested
  exact .look fun s => .ite (fun _ => .error) fun _ => .last h.deeper

end Builds

/-! ### Leaves -/

/-- The token can be a leaf as it stands. -/
def Ordinary (k : TokenKind) : Prop := k ≠ .endOfFile ∧ k.isElementText = false

instance (k : TokenKind) : Decidable (Ordinary k) := by
  unfold Ordinary
  infer_instance

lemma ordinary_of_word {k : TokenKind} (h : k.isIdentifierOrKeyword = true) : Ordinary k := by
  revert h
  cases k <;> decide

section Leaves

variable {P : TokenKind → Prop}

/-- The token at hand as a node. -/
lemma spelled_atHand {s : State} {n : Node} {k : TokenKind} (h : s.scanner.Sound text)
    (ho : Ordinary s.scanner.kind) (hk : n.kind = .token k) (hj : k ≠ .jsxText)
    (hc : n.children = []) (hp : n.pos = s.scanner.fullStart) (hs : n.stop = s.scanner.tokenEnd) :
    Spelled text s.scanner.fullStart [n] [s.atHand] s.atHand.stop := by
  refine .leaf hk hc hp hs ?_ ((Since.refl h).behind ho.1) (.nil _)
  have hstart := h.tokenStart_eq
  simp only [ho.2, Bool.false_eq_true, if_false] at hstart
  simpa [leafStart, Tree.isToken, hk, hj, hp, State.atHand] using hstart

lemma leaf_builds {k : TokenKind} (payload : Payload) (hP : ∀ k', P k' → Ordinary k')
    (hk : k ≠ .jsxText) :
    Builds text R (fun σ => P σ.kind) (leaf (.token k) payload) fun n => n.kind = .token k := by
  refine ⟨fun m he s hs hK hc => ?_⟩
  have hfull := s.scanner.scan_fullStart
  refine ⟨Since.of_eq (s := s.after Scanner.scan) ?_ rfl rfl, rfl⟩
  exact hs.take (hs.sound.scan he) hfull (spelled_atHand hs.sound (hP _ hK.1) rfl hk rfl rfl hfull)

lemma tokenNode_builds (hP : ∀ k, P k → Ordinary k) :
    Builds text R (fun σ => P σ.kind) tokenNode fun n => ∃ k, n.kind = .token k ∧ P k := by
  refine ⟨fun m he s hs hK hc => ?_⟩
  have ho := hP _ hK.1
  have hj : s.scanner.kind ≠ .jsxText := fun e => by
    have := ho.2
    rw [e] at this
    cases this
  have hfull := s.scanner.scan_fullStart
  refine ⟨Since.of_eq (s := s.after Scanner.scan) ?_ rfl rfl, s.scanner.kind, rfl, hK.1⟩
  exact hs.take (hs.sound.scan he) hfull (spelled_atHand hs.sound ho rfl hj rfl rfl hfull)

/-- A token of one kind as a node. -/
lemma tokenNode_at (k : TokenKind) (hk : Ordinary k := by decide) :
    Builds text R (At k) tokenNode fun n => n.kind = .token k :=
  (tokenNode_builds (P := (· = k)) fun _ e => e ▸ hk).mono
    (fun _ ⟨_, h, e⟩ => e ▸ h) fun _ h => h

lemma optionalToken_builds (k : TokenKind) (hk : Ordinary k := by decide) :
    Builds text R Anywhere (optionalToken k) fun o => ∀ n ∈ o, n.kind = .token k := by
  refine ⟨fun m => ?_⟩
  refine .askIf ?_ (.pure rfl (by simp))
  exact .sub (tokenNode_at k hk) fun n hn => .pure (by simp) (by simpa using hn)

instance word_builds :
    Builds text R (fun σ => σ.kind.isIdentifierOrKeyword = true) word
      fun n => n.kind = .token .identifier := by
  refine ⟨fun m => ?_⟩
  refine .look fun v => .last (leaf_builds _ (fun _ => ordinary_of_word) (by decide))

instance identifierName_builds :
    Builds text R Anywhere identifierName fun n => n.kind = .token .identifier := by
  refine ⟨fun m => ?_⟩
  exact .askIf (.last word_builds) .error

instance identifier_builds :
    Builds text R Anywhere identifier fun n => n.kind = .token .identifier := by
  refine ⟨fun m => ?_⟩
  exact .askIf (.last word_builds) (.askIf .error .error)

instance privateIdentifier_builds :
    Builds text R (At .privateIdentifier) privateIdentifier
      fun n => n.kind = .token .privateIdentifier := by
  refine ⟨fun m => ?_⟩
  refine .look fun v => .last (leaf_builds (P := (· = .privateIdentifier)) _ ?_ (by decide))
  rintro _ rfl
  decide

/-- A literal of one of the given kinds. -/
lemma literal_builds (hP : ∀ k, P k → Ordinary k) :
    Builds text R (fun σ => P σ.kind) literal fun n => ∃ k, n.kind = .token k ∧ P k := by
  refine ⟨fun m => ?_⟩
  refine .token fun k => .know (Q := P k) (fun σ h => h.2 ▸ h.1.1) fun hk => .look fun s => ?_
  have hj : k ≠ .jsxText := by
    rintro rfl
    cases (hP _ hk).2
  refine .ite (fun _ => .error) fun _ => .look fun v => ?_
  refine .last (leaf_builds (P := (· = k)) _ (fun _ e => e ▸ hP k hk) hj) ?_
  exact fun n hn => ⟨k, hn, hk⟩

end Leaves

/-! ### Nodes of a form -/

lemma map_withRole_nodes (parts : List Part) :
    (parts.flatMap Part.nodes).map (·.withRole .root) =
      (parts.flatMap Part.bare).map (·.withRole .root) := by
  induction parts with
  | nil => rfl
  | cons p parts ih =>
    rw [List.flatMap_cons, List.flatMap_cons, List.map_append, List.map_append, ih, Part.nodes_eq]
    cases h : p.role? <;> simp [Function.comp_def]

/-- The nodes that have been built since the mark are the parts of one node. -/
lemma Since.form {s : State} {f : Form} {parts : List Part} {flags : NodeFlags} {id stop : Nat}
    (h : Since text m ns s) (hstop : stop = s.scanner.fullStart)
    (hn : parts.flatMap Part.bare = ns) (hfit : Fits f parts flags) :
    Since text m [.ofParts id (.form f) m.pos stop flags parts] s := by
  obtain ⟨ts, hts, hs⟩ := h.spelled
  refine ⟨h.sound, ts, hts, ?_⟩
  subst hstop hn
  exact .ofForm rfl rfl (hs.congr (map_withRole_nodes parts)) (hfit _ _ _)

namespace Goes

variable {form : Form} {parts : List Part} {flags : NodeFlags}

/-- **All that has been built since the mark becomes the parts of a node.** -/
lemma finish {val : Node → Prop} (hfit : Fits form parts flags)
    (hv : ∀ id stop, val (.ofParts id (.form form) m.pos stop flags parts))
    (hn : parts.flatMap Part.bare = ns := by simp) :
    Goes text R m ns K (Parse.finish form m.pos parts flags) nodesIn val :=
  fun _ _ hs _ _ => ⟨Since.of_eq (hs.form rfl hn hfit) rfl rfl, hv _ _⟩

lemma finishThen {g : Node → Parse β} (hfit : Fits form parts flags)
    (hg : ∀ id stop, Goes text R m [.ofParts id (.form form) m.pos stop flags parts] Anywhere
      (g (.ofParts id (.form form) m.pos stop flags parts)) out val)
    (hn : parts.flatMap Part.bare = ns := by simp) :
    Goes text R m ns K (Parse.finish form m.pos parts flags >>= g) out val :=
  fun he _ hs _ hc => hg _ _ he _ (Since.of_eq (hs.form rfl hn hfit) rfl rfl) trivial hc

lemma listFrom {start : Nat} {nodes : List Node} {f : NodeList → Parse β}
    (hf : ∀ span, Goes text R m ns K (f ⟨nodes, span⟩) out val) :
    Goes text R m ns K (Parse.listFrom start nodes >>= f) out val :=
  fun he s hs hk hc => hf _ he s hs hk hc

lemma listFrom? {start : Nat} {nodes : List Node} {f : Option NodeList → Parse β}
    (hf : ∀ o : Option NodeList, (o.map (·.nodes)).getD [] = nodes →
      Goes text R m ns K (f o) out val) :
    Goes text R m ns K (Parse.listFrom? start nodes >>= f) out val := by
  unfold Parse.listFrom?
  cases nodes with
  | nil => exact hf none rfl
  | cons n nodes =>
    change Goes text R m ns K ((Parse.listFrom start (n :: nodes) >>= fun l => _) >>= f) out val
    rw [bind_assoc]
    exact listFrom fun span => hf (some ⟨n :: nodes, span⟩) rfl

end Goes

/-! ### Repetition -/

section Repetition

variable [HasNodes α]

lemma many_builds (ok : α → Prop) {p : Parse (Option α)}
    (h : Builds text R Anywhere p fun o => ∀ a ∈ o, ok a) :
    Builds text R Anywhere (many p) fun l => ∀ a ∈ l, ok a := by
  have upTo (n : Nat) : Builds text R Anywhere (manyUpTo p n) fun l => ∀ a ∈ l, ok a := by
    induction n with
    | zero => exact ⟨fun m => .giveUp⟩
    | succ n ih =>
      refine ⟨fun m => ?_⟩
      refine .sub h fun o ho => ?_
      cases o with
      | none => exact .pure (by simp) (by simp)
      | some a =>
        refine .sub ih fun l hl => .pure (by simp) ?_
        simpa [ho a rfl] using hl
  refine ⟨fun m => ?_⟩
  exact .look fun s => .last (upTo _)

omit [HasNodes α] in
/-- A value that is replaced as long as a rule makes something of it. -/
lemma iterate_goes {g : α → Parse (Option α)} {a : α} (view : α → List Node) (inv : α → Prop)
    (ha : inv a)
    (hg : ∀ a, inv a → Goes text R m (view a) Anywhere (g a) (fun o => view (o.getD a))
      fun o => ∀ b ∈ o, inv b)
    (hns : view a = ns := by simp) : Goes text R m ns K (iterate g a) view inv := by
  have upTo (n : Nat) (a : α) (ha : inv a) :
      Goes text R m (view a) Anywhere (iterateUpTo g n a) view inv := by
    induction n generalizing a with
    | zero => exact .giveUp
    | succ n ih =>
      refine .bind (hg a ha) fun o ho => ?_
      cases o with
      | none => exact .pure rfl ha
      | some b => exact ih b (ho b rfl)
  subst hns
  exact .look fun s => (upTo _ a ha).anywhere

/-- An element of a list with commas is followed by a comma or by what closes the list. -/
instance separation_builds (close : TokenKind) (before : Nat) :
    Builds text R Anywhere (separation close before) fun x => x = .comma ∨ x = .closed := by
  refine ⟨fun m => ?_⟩
  refine .accept (.pure rfl (.inl rfl)) ?_
  change Goes text R m [] _ (isAt close >>= fun b => if b = true then _ else _) nodesIn _
  exact .askIf (.pure rfl (.inr rfl)) (.expect_missing fun _ h => h.2)

lemma commaList_builds {close : TokenKind} {element : Parse Node} {ok : Node → Prop}
    (h : Builds text R Anywhere element ok) :
    Builds text R Anywhere (commaList close element) fun l => ∀ n ∈ l.nodes, ok n := by
  have upTo (n : Nat) (trailing : Bool) : Builds text R Anywhere
      (elementsUpTo close element n trailing) fun x => ∀ n ∈ x.1, ok n := by
    induction n generalizing trailing with
    | zero => exact ⟨fun m => .giveUp⟩
    | succ n ih =>
      refine ⟨fun m => ?_⟩
      refine .askIf (.pure rfl (by simp)) (.look fun before => .sub h fun first hfirst => ?_)
      refine .sub (separation_builds close before) fun x hx => ?_
      rcases hx with rfl | rfl
      · refine .sub (ih true) fun rest hrest => .pure (by simp) ?_
        simpa [hfirst] using hrest
      · exact .pure (by simp) (by simpa using hfirst)
  refine ⟨fun m => ?_⟩
  refine .look fun start => .look fun s => .sub (upTo _ false) fun x hx => .look fun stop => ?_
  exact .pure (by simp) hx

lemma enclosedList_builds {opening closing : TokenKind} {element : Parse Node} {ok : Node → Prop}
    (h : Builds text R Anywhere element ok) (ho : opening ≠ .endOfFile := by decide)
    (hc : closing ≠ .endOfFile := by decide) :
    Builds text R Anywhere (enclosedList opening closing element)
      fun l => ∀ n ∈ l.nodes, ok n := by
  refine ⟨fun m => ?_⟩
  refine .expect_ (.sub (commaList_builds h) fun l hl => .expect_ ?_ hc) ho
  exact .pure (by simp) hl

lemma listUntil_builds {stops : List TokenKind} {element : Parse (Option Node)} {ok : Node → Prop}
    (h : Builds text R Anywhere element fun o => ∀ n ∈ o, ok n) :
    Builds text R Anywhere (listUntil stops element) fun l => ∀ n ∈ l.nodes, ok n := by
  have hbefore : Builds text R Anywhere (elementBefore stops element)
      fun o => ∀ x ∈ o, ∀ n ∈ x, ok n := by
    refine ⟨fun m => ?_⟩
    refine .askIf (.pure rfl (by simp)) (.look fun before => .sub h fun found hfound => ?_)
    refine .look fun start => .look fun b => .ite (fun _ => .error) fun _ => ?_
    exact .pure (by simp) (by simpa using hfound)
  refine ⟨fun m => ?_⟩
  refine .look fun start => .sub (many_builds _ hbefore) fun found hfound => ?_
  rw [← bind_pure (listFrom start _)]
  refine .listFrom fun span => .pure (HasNodes.nodesIn_options found).symm ?_
  intro n hn
  obtain ⟨o, ho, rfl⟩ := List.mem_filterMap.1 hn
  exact hfound _ ho n rfl

lemma separated_builds {element : Parse Node} {ok : Node → Prop}
    (h : Builds text R Anywhere element ok) :
    Builds text R Anywhere (separated element) fun l => ∀ n ∈ l, ok n := by
  refine ⟨fun m => ?_⟩
  refine .sub h fun first hfirst => .sub (many_builds ok ⟨fun m => ?_⟩) fun rest hrest => ?_
  · exact .acceptIf (.sub h fun n hn => .pure (by simp) (by simpa using hn)) (.pure rfl (by simp))
  · exact .pure (by simp) (by simpa [hfirst] using hrest)

end Repetition

end EstreeLint.Grammar
