import EstreeLint.Proofs.Grammar.Goes
import EstreeLint.Proofs.Token.Advance

/-!
A rule of the grammar goes forward in the text, told step by step.

What a rule does is compared under two runners and two bounds on how often a rule may be repeated.
`Alike` says that neither makes a difference, and that the rule does not go back in the text. That
is so if the runners agree on the goals that the rule reaches, and which those are is what is
counted here: a goal may only be reached with less of the text left, or at the same token if its
rank is lower. So `Starts ρ K p still` is about a rule that has not taken a token yet. It starts
where `K` holds of the scanner and may reach goals of rank below `ρ`; from its first token on it
may reach any. If it ends without having taken a token, `still` holds of what it gives.
-/

namespace EstreeLint.Grammar

open Parse

/-! ### Goals -/

/-- How much of the text lies from the token at hand on. -/
def State.left (text : Source) (s : State) : Nat := Text.bytes text - s.scanner.tokenStart

/-- At one token, a goal is reached only from goals of higher rank. -/
def Goal.rank : Goal → Nat
  | .innerNamespace _ => 3
  | .statement => 2
  | .assignment _ | .binary _ | .simpleUnary => 1
  | .element _ | .leftHandSide | .primary | .type | .typeOperator | .binding => 0

/-- The token that a goal takes first where it is at hand, if the goal begins with one. -/
def Goal.opener? : Goal → Option TokenKind
  | .element _ => some .lessThan
  | _ => none

/-- How far off the end of the parse is where a goal is reached. -/
def weight (text : Source) (g : Goal) (s : State) : Nat := 4 * s.left text + g.rank

/-! ### The judgement -/

variable {α β : Type} {text : Source} {R R' : Runner} {s : State} {m ρ : Nat}
  {K K' : Scanner → Prop} {p : Parse α} {f : α → Parse β}

/-- The rule `p` under one runner and `p'` under the other do the same, whatever the bound `m` on
repetitions. They stay on the text and do not go back in it. -/
structure Alike (text : Source) (R R' : Runner) (p p' : Parse α) (s : State) (m : Nat) : Prop where
  run_eq : p'.run R' { s with limit := m } =
    ((p.run R s).1, { (p.run R s).2 with limit := m })
  sound : (p.run R s).2.scanner.Sound text
  le : s.scanner.tokenStart ≤ (p.run R s).2.scanner.tokenStart

/-- The run of a rule takes a token at least. -/
def Takes (R : Runner) (p : Parse α) (s : State) : Prop :=
  s.scanner.tokenStart < (p.run R s).2.scanner.tokenStart

/-- The runners agree on the goals that weigh less than `bound`. -/
structure Agree (text : Source) (R R' : Runner) (bound : Nat) : Prop where
  remembers : R'.remembers = R.remembers
  goals {g : Goal} {s : State} {m : Nat} (sound : s.scanner.Sound text)
    (limit : Text.bytes text + 2 ≤ s.limit) (limit' : Text.bytes text + 2 ≤ m)
    (lt : weight text g s < bound) :
    Alike text R R' (reach? g) (reach? g) s m ∧ (s.scanner.kind ∈ g.opener? → Takes R (reach? g) s)

/-- A place in two parses, where goals of rank below `ρ` may be reached. -/
structure Setting (text : Source) (R R' : Runner) (s : State) (m ρ : Nat) : Prop where
  escapes : ValidEscapes text
  sound : s.scanner.Sound text
  limit : Text.bytes text + 2 ≤ s.limit
  limit' : Text.bytes text + 2 ≤ m
  agree : Agree text R R' (4 * s.left text + ρ)

/-- The rank that goals stay below: `ρ` until a token has been taken. Then any goal may be
reached. -/
def within (ρ : Nat) (taken : Bool) : Nat := bif taken then ρ + 4 else ρ

/-- Whether a token has been taken before or not, the rule goes the same way in both parses. Where
none has been, `K` holds of the scanner, and the rule takes one or ends with `still`. -/
def Starts (ρ : Nat) (K : Scanner → Prop) (p : Parse α) (still : α → Scanner → Prop) : Prop :=
  ∀ ⦃text : Source⦄ ⦃R R' : Runner⦄ ⦃s : State⦄ ⦃m : Nat⦄ (taken : Bool),
    Setting text R R' s m (within ρ taken) → (taken = false → K s.scanner) →
    Alike text R R' p p s m ∧
      (taken = false → Takes R p s ∨ still (p.run R s).1 (p.run R s).2.scanner)

/-- The rule may start everywhere, and need not take a token. -/
class Proceeds (ρ : Nat) (p : Parse α) : Prop where
  starts : Starts ρ Anywhere p fun _ _ => True

/-- The rule takes a token first, where `K` holds. -/
class Opened (K : outParam (Scanner → Prop)) (p : Parse α) : Prop where
  starts (ρ : Nat) : Starts ρ K p fun _ _ => False

/-- There is a token at hand. -/
@[simp] abbrev HasToken (σ : Scanner) : Prop := σ.kind ≠ .endOfFile

/-- The token at hand is of the given kind, which is not the end of the text. -/
@[simp] abbrev Begins (k : TokenKind) (σ : Scanner) : Prop := σ.kind = k ∧ k ≠ .endOfFile

/-! ### Places -/

instance : Decidable (Takes R p s) := inferInstanceAs (Decidable (_ < _))

lemma Agree.mono {b b' : Nat} (h : Agree text R R' b') (hb : b ≤ b') : Agree text R R' b where
  remembers := h.remembers
  goals sound limit limit' lt := h.goals sound limit limit' (Nat.lt_of_lt_of_le lt hb)

lemma State.left_lt {t : State} (h : t.scanner.Sound text)
    (hlt : s.scanner.tokenStart < t.scanner.tokenStart) : t.left text < s.left text := by
  have := h.tokenStart_le
  unfold left
  omega

namespace Alike

/-- Two steps. -/
lemma bind {p p' : Parse α} {f f' : α → Parse β} (h : Alike text R R' p p' s m)
    (hf : Alike text R R' (f (p.run R s).1) (f' (p.run R s).1) (p.run R s).2 m) :
    Alike text R R' (p >>= f) (p' >>= f') s m where
  run_eq := by
    rw [run_bind, h.run_eq]
    exact hf.run_eq
  sound := hf.sound
  le := Nat.le_trans h.le hf.le

lemma left_le {p p' : Parse α} (h : Alike text R R' p p' s m) :
    (p.run R s).2.left text ≤ s.left text := by
  have := h.le
  unfold State.left
  omega

end Alike

lemma Setting.mono {ρ' : Nat} (h : Setting text R R' s m ρ') (hρ : ρ ≤ ρ') :
    Setting text R R' s m ρ := { h with agree := h.agree.mono (Nat.add_le_add_left hρ _) }

lemma le_within (ρ : Nat) (taken : Bool) : ρ ≤ within ρ taken := by cases taken <;> simp [within]

/-- The place after a step, which may have taken a token. -/
lemma Setting.after {taken : Bool} (h : Setting text R R' s m (within ρ taken))
    (hp : Alike text R R' p p s m) :
    Setting text R R' (p.run R s).2 m (within ρ (taken || Takes R p s)) :=
  { h with
    sound := hp.sound
    limit := (p.extends_run R s).limit ▸ h.limit
    agree := by
      refine h.agree.mono ?_
      have hle := hp.left_le
      by_cases ht : Takes R p s
      · have hlt := State.left_lt hp.sound ht
        have hρ := le_within ρ taken
        simp only [ht, decide_true, Bool.or_true, within, cond_true] at hρ ⊢
        omega
      · simp only [ht, decide_false, Bool.or_false]
        omega }

lemma Setting.afterStep (h : Setting text R R' s m ρ) (hp : Alike text R R' p p s m) :
    Setting text R R' (p.run R s).2 m (within ρ (Takes R p s)) :=
  Setting.after (show Setting text R R' s m (within ρ false) from h) hp

/-! ### Steps -/

namespace Starts

variable {still : α → Scanner → Prop} {out out' : β → Scanner → Prop}

lemma mono {p : Parse β} (h : Starts ρ K p out) (hK : ∀ σ, K' σ → K σ := by intros; simp_all)
    (ho : ∀ b σ, out b σ → out' b σ := by intros; simp_all) : Starts ρ K' p out' := by
  intro _ _ _ _ _ taken hs hk
  obtain ⟨halike, hstill⟩ := h taken hs fun ht => hK _ (hk ht)
  exact ⟨halike, fun ht => (hstill ht).imp_right (ho _ _)⟩

/-- Two steps: what the first leaves open is where the second starts. -/
lemma bind (hp : Starts ρ K p still) (hf : ∀ a, Starts ρ (still a) (f a) out) :
    Starts ρ K (p >>= f) out := by
  intro _ R _ s _ taken hs hk
  obtain ⟨hp, hstill⟩ := hp taken hs hk
  obtain ⟨hf, hout⟩ := hf _ (taken || Takes R p s) (hs.after hp) fun h => by
    simp only [Bool.or_eq_false_iff, decide_eq_false_iff_not] at h
    exact (hstill h.1).resolve_left h.2
  refine ⟨hp.bind hf, fun ht => ?_⟩
  by_cases htakes : Takes R p s
  · exact .inl (Nat.lt_of_lt_of_le htakes hf.le)
  · exact (hout (by simp [ht, htakes])).imp_left (Nat.lt_of_le_of_lt hp.le)

lemma pure {b : β} (h : ∀ σ, K σ → out b σ := by intros; simp_all) :
    Starts ρ K (pure b) out :=
  fun _ _ _ _ _ _ hs hk => ⟨⟨rfl, hs.sound, Nat.le_refl _⟩, fun ht => .inr (h _ (hk ht))⟩

lemma pureThen {a : α} (h : Starts ρ K (f a) out) : Starts ρ K (Pure.pure a >>= f) out := by
  rwa [pure_bind]

lemma ite {c : Prop} [Decidable c] {p q : Parse β} (hp : Starts ρ K p out)
    (hq : Starts ρ K q out) : Starts ρ K (if c then p else q) out := by
  split
  · exact hp
  · exact hq

/-- A rule that is named. -/
lemma named {p : Parse β} [Proceeds ρ p] : Starts ρ K p fun _ _ => True :=
  (Proceeds.starts (ρ := ρ) (p := p)).mono (fun _ _ => trivial) fun _ _ h => h

/-- What follows after a token has been taken. -/
lemma rest {p : Parse β} [hp : Proceeds 4 p] (hK : ∀ σ, ¬ K σ := by intros; simp_all) :
    Starts ρ K p out := by
  intro _ _ _ _ _ taken hs hk
  cases taken with
  | true => exact ⟨(hp.starts false (hs.mono (Nat.le_add_left _ _)) fun _ => trivial).1, nofun⟩
  | false => exact absurd (hk rfl) (hK _)

/-- A step that may start everywhere. -/
lemma sub [Proceeds ρ p] (hf : ∀ a, Starts ρ Anywhere (f a) out) : Starts ρ K (p >>= f) out :=
  bind named fun a => (hf a).mono (fun _ _ => trivial) fun _ _ h => h

/-- A step that takes a token. -/
lemma take (hp : Starts ρ K p fun _ _ => False) [∀ a, Proceeds 4 (f a)] :
    Starts ρ K (p >>= f) out := bind hp fun _ => rest fun _ h => h

lemma takeThen (hp : Starts ρ K p fun _ _ => False)
    (hf : ∀ a, Starts 4 Anywhere (f a) fun _ _ => True) : Starts ρ K (p >>= f) out :=
  have (a : α) : Proceeds 4 (f a) := ⟨hf a⟩
  take hp

/-- A rule that takes a token first. -/
lemma opened {p : Parse β} [Opened K' p] (hK : ∀ σ, K σ → K' σ := by intros; grind [At]) :
    Starts ρ K p out :=
  (Opened.starts (p := p) ρ).mono hK fun _ _ h => h.elim

/-- A step that only looks at the state. -/
lemma look [Peeks p] [Proceeds ρ p] (hf : ∀ a, Starts ρ K (f a) out) :
    Starts ρ K (p >>= f) out := by
  have hp : Starts ρ K p fun _ => K := by
    intro _ _ _ _ _ taken hs hk
    obtain ⟨halike, -⟩ := Proceeds.starts (ρ := ρ) (p := p) taken hs fun _ => trivial
    rw [Peeks.scanner_run]
    exact ⟨halike, fun ht => .inr (hk ht)⟩
  exact bind hp hf

/-- A question about the token at hand, and what follows in either case. -/
lemma ask {p : Parse Bool} {P : Scanner → Prop} [Tells p P] [Proceeds ρ p] {f : Bool → Parse β}
    (hyes : Starts ρ (fun σ => K σ ∧ P σ) (f true) out) (hno : Starts ρ K (f false) out) :
    Starts ρ K (p >>= f) out := by
  have hp : Starts ρ K p fun b σ => K σ ∧ (b = true → P σ) := by
    intro _ R _ s _ taken hs hk
    obtain ⟨halike, -⟩ := Proceeds.starts (ρ := ρ) (p := p) taken hs fun _ => trivial
    rw [Peeks.scanner_run]
    exact ⟨halike, fun ht => .inr ⟨hk ht, Tells.tells R s⟩⟩
  refine bind hp fun b => ?_
  cases b with
  | true => exact hyes.mono (fun _ h => ⟨h.1, h.2 rfl⟩) fun _ _ h => h
  | false => exact hno.mono (fun _ h => h.1) fun _ _ h => h

/-- What follows where a question has been asked. -/
lemma askIf {p : Parse Bool} {P : Scanner → Prop} [Tells p P] [Proceeds ρ p] {q₁ q₂ : Parse β}
    (hyes : Starts ρ (fun σ => K σ ∧ P σ) q₁ out) (hno : Starts ρ K q₂ out) :
    Starts ρ K (p >>= fun b => if b = true then q₁ else q₂) out := ask hyes hno

/-- A rule that takes a token if it gives something, and what follows in either case. -/
lemma found {p : Parse (Option α)} {f : Option α → Parse β} [∀ a, Proceeds 4 (f (some a))]
    (hp : Starts ρ K p fun o _ => o = none) (hno : Starts ρ Anywhere (f none) out) :
    Starts ρ K (p >>= f) out := by
  refine bind hp fun o => ?_
  cases o with
  | some a => exact rest fun _ h => by cases h
  | none => exact hno.mono (fun _ _ => trivial) fun _ _ h => h

/-- A run that is the run of another rule from the same token on. -/
lemma of_run {p q : Parse β} {t : State} {taken : Bool}
    (h : Alike text R R' q q t m ∧
      (taken = false → Takes R q t ∨ out (q.run R t).1 (q.run R t).2.scanner))
    (hrun : p.run R s = q.run R t)
    (hrun' : p.run R' { s with limit := m } = q.run R' { t with limit := m })
    (hstart : t.scanner.tokenStart = s.scanner.tokenStart) :
    Alike text R R' p p s m ∧
      (taken = false → Takes R p s ∨ out (p.run R s).1 (p.run R s).2.scanner) := by
  obtain ⟨halike, hstill⟩ := h
  refine ⟨⟨?_, ?_, ?_⟩, ?_⟩
  · rw [hrun', hrun]
    exact halike.run_eq
  · rw [hrun]
    exact halike.sound
  · rw [hrun, ← hstart]
    exact halike.le
  · rw [Takes, hrun, ← hstart]
    exact hstill

/-- What depends on the state, but not on how often a rule may be repeated. -/
lemma current {f : State → Parse β} (h : ∀ s, Starts ρ K (f s) out)
    (hf : ∀ s m, f { s with limit := m } = f s := by intros; rfl) :
    Starts ρ K (current >>= f) out := by
  intro _ R R' s m taken hs hk
  have hrun (R : Runner) (s : State) : (Parse.current >>= f).run R s = (f s).run R s := rfl
  exact of_run (h s taken hs hk) (hrun R s) ((hrun R' _).trans (by rw [hf])) rfl

/-- A step that reads something off the scanner. -/
lemma reading (g : Scanner → α) (hf : ∀ a, Starts ρ (fun σ => K σ ∧ g σ = a) (f a) out)
    (hp : ∀ R s, p.run R s = (g s.scanner, s) := by intros; rfl) :
    Starts ρ K (p >>= f) out := by
  intro _ R R' s _ taken hs hk
  have hrun (R : Runner) (s : State) : (p >>= f).run R s = (f (g s.scanner)).run R s := by
    rw [run_bind, hp]
  exact of_run (hf (g s.scanner) taken hs fun ht => ⟨hk ht, rfl⟩) (hrun R s) (hrun R' _) rfl

lemma token {f : TokenKind → Parse β}
    (hf : ∀ k, Starts ρ (fun σ => K σ ∧ σ.kind = k) (f k) out) :
    Starts ρ K (Parse.token >>= f) out := reading Scanner.kind hf fun _ _ => rfl

lemma tokenStart {f : Nat → Parse β}
    (hf : ∀ n, Starts ρ (fun σ => K σ ∧ σ.tokenStart = n) (f n) out) :
    Starts ρ K (Parse.tokenStart >>= f) out := reading Scanner.tokenStart hf fun _ _ => rfl

lemma isAt {k : TokenKind} {q₁ q₂ : Parse β} (hyes : Starts ρ (fun σ => K σ ∧ σ.kind = k) q₁ out)
    (hno : Starts ρ (fun σ => K σ ∧ σ.kind ≠ k) q₂ out) :
    Starts ρ K (Parse.isAt k >>= fun b => if b = true then q₁ else q₂) out := by
  refine reading (fun σ => σ.kind == k) (fun b => ?_) fun _ _ => rfl
  cases b with
  | true => exact hyes.mono (fun _ h => ⟨h.1, by simpa using h.2⟩) fun _ _ h => h
  | false => exact hno.mono (fun _ h => ⟨h.1, by simpa using h.2⟩) fun _ _ h => h

lemma atAny {ks : List TokenKind} {q₁ q₂ : Parse β}
    (hyes : Starts ρ (fun σ => K σ ∧ σ.kind ∈ ks) q₁ out)
    (hno : Starts ρ (fun σ => K σ ∧ σ.kind ∉ ks) q₂ out) :
    Starts ρ K (Parse.atAny ks >>= fun b => if b = true then q₁ else q₂) out := by
  refine reading (fun σ => ks.contains σ.kind) (fun b => ?_) fun _ _ => rfl
  cases b with
  | true => exact hyes.mono (fun _ h => ⟨h.1, by simpa using h.2⟩) fun _ _ h => h
  | false => exact hno.mono (fun _ h => ⟨h.1, by simpa using h.2⟩) fun _ _ h => h

lemma iteOf {c : Prop} [Decidable c] {p q : Parse β} (hp : c → Starts ρ K p out)
    (hq : ¬ c → Starts ρ K q out) : Starts ρ K (if c then p else q) out := by
  split
  · exact hp ‹_›
  · exact hq ‹_›

/-- Where a step takes no token, the token at hand starts where it did, and is not the end of the
text if it was not. -/
lemma stand (n : Nat) [Proceeds ρ p]
    (hf : ∀ a, Starts ρ (fun σ => σ.tokenStart = n ∧ σ.kind ≠ .endOfFile) (f a) out)
    (hK : ∀ σ, K σ → σ.tokenStart = n ∧ σ.kind ≠ .endOfFile := by intros; simp_all) :
    Starts ρ K (p >>= f) out := by
  refine bind (fun text R _ s _ taken hs hk => ?_) hf
  obtain ⟨halike, -⟩ := Proceeds.starts (ρ := ρ) (p := p) taken hs fun _ => trivial
  refine ⟨halike, fun ht => or_iff_not_imp_left.2 fun hn => ?_⟩
  obtain ⟨hstart, hkind⟩ := hK _ (hk ht)
  have hle := halike.le
  simp only [Takes, Nat.not_lt] at hn
  refine ⟨by omega, fun he => ?_⟩
  have hend := (halike.sound.ends he).1
  have hlt := (hs.sound.rest hkind).2
  have hcursor := hs.sound.cursor_on.pos_add
  simp only [Scanner.tokenEnd] at hlt
  omega

/-! ### Rules inside others -/

lemma inContext {p : Parse β} {add drop : Context} (h : Starts ρ K p out) :
    Starts ρ K (withContext add drop p) out := by
  intro _ _ _ s _ taken hs hk
  obtain ⟨hp, hstill⟩ := h (s := { s with context := s.context.change add drop }) taken
    ⟨hs.escapes, hs.sound, hs.limit, hs.limit', hs.agree⟩ hk
  have hrun := congrArg (fun x => (x.1, { x.2 with context := s.context })) hp.run_eq
  exact ⟨⟨hrun, hp.sound, hp.le⟩, hstill⟩

lemma oneDeeper {p : Parse β} (h : Starts ρ K p out) : Starts ρ K (deeper p) out := by
  intro _ _ _ s _ taken hs hk
  obtain ⟨hp, hstill⟩ := h (s := { s with depth := s.depth + 1 }) taken
    ⟨hs.escapes, hs.sound, hs.limit, hs.limit', hs.agree⟩ hk
  have hrun := congrArg (fun x => (x.1, { x.2 with depth := x.2.depth - 1 })) hp.run_eq
  exact ⟨⟨hrun, hp.sound, hp.le⟩, hstill⟩

/-- What looks ahead stays where it is. -/
lemma ahead (h : Starts ρ K p still) : Starts ρ K (lookAhead p) fun _ => K := by
  intro _ _ _ _ _ taken hs hk
  obtain ⟨hp, -⟩ := h taken hs hk
  refine ⟨⟨?_, ?_, Nat.le_of_eq ?_⟩, fun ht => .inr ?_⟩
  · rw [run_lookAhead, run_lookAhead, hp.run_eq]
  · rw [run_lookAhead]
    exact hs.sound
  · rw [run_lookAhead]
  · rw [run_lookAhead]
    exact hk ht

lemma aheadOpened [Opened K' p] (hK : ∀ σ, K σ → K' σ := by intros; grind [At]) :
    Starts ρ K (lookAhead p) fun _ => K :=
  .ahead ((Opened.starts (p := p) ρ).mono hK fun _ _ h => h)

/-- What is taken back leaves the parse where it was. -/
lemma tried {p : Parse (Option α)} {still : Option α → Scanner → Prop} (h : Starts ρ K p still) :
    Starts ρ K (attempt p) fun o σ => o = none ∧ K σ ∨ still o σ := by
  intro _ R R' s m taken hs hk
  obtain ⟨hp, hstill⟩ := h taken hs hk
  have hfst : (p.run R' { s with limit := m }).1 = (p.run R s).1 := by rw [hp.run_eq]
  cases hrun : (p.run R s).1 with
  | none =>
    have hattempt := run_attempt_of_none hrun
    refine ⟨⟨?_, ?_, Nat.le_of_eq ?_⟩, fun ht => .inr (.inl ?_)⟩
    · rw [hattempt, run_attempt_of_none (hfst.trans hrun), hp.run_eq]
    · rw [hattempt]
      exact hs.sound
    · rw [hattempt]
    · rw [hattempt]
      exact ⟨rfl, hk ht⟩
  | some a =>
    have hattempt := run_attempt_of_some hrun
    refine ⟨⟨?_, ?_, ?_⟩, fun ht => ?_⟩
    · rw [hattempt, run_attempt_of_some (hfst.trans hrun), hp.run_eq]
    · rw [hattempt]
      exact hp.sound
    · rw [hattempt]
      exact hp.le
    · rw [Takes, hattempt]
      exact (hstill ht).imp_right .inr

/-- What is given is the result of a rule that has taken a token. -/
lemma triedOnly {p : Parse (Option α)} (h : Starts ρ Anywhere p fun o _ => o = none) :
    Starts ρ K (attempt p) fun o _ => o = none :=
  h.tried.mono (fun _ _ => trivial) fun _ _ h => h.elim And.left id

/-- What has been ruled out is so in both parses. -/
lemma unlessRuledOut {p : Parse (Option α)} (h : Starts ρ Anywhere p fun o _ => o = none) :
    Starts ρ K (unlessRuledOut p) fun o _ => o = none := by
  intro _ R R' s m taken hs hk
  obtain ⟨halike, hstill⟩ := h.triedOnly (K := K) taken hs hk
  have hremembers := hs.agree.remembers
  by_cases hhit : (R.remembers && s.notArrow.contains s.scanner.tokenStart) = true
  · have hrun : (Parse.unlessRuledOut p).run R s = (none, s.ruleOut) := if_pos hhit
    have hrun' : (Parse.unlessRuledOut p).run R' { s with limit := m } =
        (none, { s with limit := m }.ruleOut) := if_pos (hremembers ▸ hhit)
    rw [Takes, hrun]
    exact ⟨⟨by rw [hrun', hrun]; rfl, by rw [hrun]; exact hs.sound,
      by rw [hrun]; exact Nat.le_refl _⟩, fun _ => .inr rfl⟩
  · have hmiss : (Parse.unlessRuledOut p).run R s =
        if ((attempt p).run R s).1.isNone then (none, ((attempt p).run R s).2.ruleOut)
        else (attempt p).run R s := if_neg hhit
    have hmiss' : (Parse.unlessRuledOut p).run R' { s with limit := m } =
        if ((attempt p).run R' { s with limit := m }).1.isNone then
          (none, ((attempt p).run R' { s with limit := m }).2.ruleOut)
        else (attempt p).run R' { s with limit := m } := if_neg (hremembers ▸ hhit)
    rw [halike.run_eq] at hmiss'
    cases hfound : ((attempt p).run R s).1 with
    | none =>
      rw [hfound, Option.isNone_none, if_pos rfl] at hmiss hmiss'
      rw [Takes, hmiss]
      exact ⟨⟨by rw [hmiss', hmiss]; rfl, by rw [hmiss]; exact halike.sound,
        by rw [hmiss]; exact halike.le⟩, fun _ => .inr rfl⟩
    | some a =>
      rw [hfound, Option.isNone_some, if_neg Bool.false_ne_true] at hmiss hmiss'
      rw [Takes, hmiss]
      exact ⟨⟨by rw [hmiss', hmiss, hfound], by rw [hmiss]; exact halike.sound,
        by rw [hmiss]; exact halike.le⟩, hstill⟩

end Starts

end EstreeLint.Grammar
