import EstreeLint.Proofs.Grammar.Goes

/-!
What the rules of the grammar share.

The rules that contain each other are only known to reach their goals: `Reaches` says that a goal
that is reached builds a usable node. Every rule below is judged under that assumption, and the
assumption holds of the parse because each rule meets it.
-/

namespace EstreeLint.Grammar

open Parse
open Estree (Usable Fits Supplies Supplied isRuled)

variable {α β : Type} {text : Source} {R : Runner} {m : Mark} {ns : List Node}
  {K K₁ K₂ : Scanner → Prop} {out : β → List Node} {val : β → Prop}

/-! ### Steps that may be taken back -/

/-- What is taken back has built nothing. -/
lemma attempt_builds [HasNodes α] {p : Parse (Option α)} {ok : α → Prop}
    (h : Builds text R K p fun o => ∀ a ∈ o, ok a) :
    Builds text R K (attempt p) fun o => ∀ a ∈ o, ok a := by
  refine ⟨fun m he s hs hk hc => ?_⟩
  cases hrun : (p.run R s).1 with
  | none =>
    rw [run_attempt_of_none hrun]
    exact ⟨hs.of_eq rfl rfl, by simp⟩
  | some a =>
    rw [run_attempt_of_some hrun] at hc ⊢
    exact h.goes m he s hs hk hc

/-- A parenthesis that is ruled out has built nothing. -/
lemma unlessRuledOut_builds [HasNodes α] {p : Parse (Option α)} {ok : α → Prop}
    (h : Builds text R K p fun o => ∀ a ∈ o, ok a) :
    Builds text R K (unlessRuledOut p) fun o => ∀ a ∈ o, ok a := by
  refine ⟨fun m he s hs hk hc => ?_⟩
  unfold unlessRuledOut at hc ⊢
  dsimp only at hc ⊢
  split at hc
  · next hit =>
    rw [if_pos hit]
    exact ⟨hs.of_eq rfl rfl, by simp⟩
  · next miss =>
    rw [if_neg miss]
    split at hc
    · next hnone =>
      rw [if_pos hnone]
      obtain ⟨hsince, -⟩ := (attempt_builds h).goes m he s hs hk hc
      rw [Option.isNone_iff_eq_none.1 hnone] at hsince
      exact ⟨hsince.of_eq rfl rfl, by simp⟩
    · next hsome =>
      rw [if_neg hsome]
      exact (attempt_builds h).goes m he s hs hk hc

/-- A way to read the token at hand again. -/
structure Rereads (text : Source) (g : Scanner → Scanner) : Prop where
  sound {σ : Scanner} (h : σ.Sound text) : (g σ).Sound text
  fullStart (σ : Scanner) : (g σ).fullStart = σ.fullStart

lemma rereads_greater : Rereads text Scanner.rescanGreater :=
  ⟨.rescanGreater, fun σ => σ.rescan_fullStart.1⟩

lemma rereads_less : Rereads text Scanner.rescanLess :=
  ⟨.rescanLess, fun σ => σ.rescan_fullStart.2.1⟩

lemma rereads_identifier : Rereads text Scanner.scanJsxIdentifier :=
  ⟨.scanJsxIdentifier, fun σ => σ.rescan_fullStart.2.2.2⟩

namespace Goes

/-- The token at hand is read in another way. -/
lemma rescanAs (K₁ : Scanner → Prop) {g : Scanner → Scanner} [Scanner.Reading g]
    {f : TokenKind → Parse β}
    (hg : ∀ σ, σ.Sound text → K σ →
      (g σ).Sound text ∧ (g σ).fullStart = σ.fullStart ∧ K₁ (g σ))
    (hf : ∀ k, Goes text R m ns (fun σ => K₁ σ ∧ σ.kind = k) (f k) out val) :
    Goes text R m ns K (Parse.rescan g >>= f) out val := by
  intro he s hs hk hc
  obtain ⟨hsound, hfull, hK⟩ := hg _ hs.sound hk
  obtain ⟨ts, hts, hsp⟩ := hs.spelled
  have hnext : Since text m ns { s with scanner := g s.scanner } :=
    ⟨hsound, ts, hts, by simpa only [hfull] using hsp⟩
  exact hf _ he _ hnext ⟨hK, rfl⟩ hc

/-- The token at hand is read again at the front of a rule. -/
lemma reread {g : Scanner → Scanner} [Scanner.Reading g] {f : TokenKind → Parse β}
    (hg : Rereads text g)
    (hf : ∀ k, Goes text R m ns (fun σ => σ.fullStart = m.pos ∧ σ.kind = k) (f k) out val)
    (hK : ∀ σ, K σ → σ.fullStart = m.pos := by intros; simp_all) :
    Goes text R m ns K (Parse.rescan g >>= f) out val :=
  rescanAs _ (fun σ hs hk => ⟨hg.sound hs, hg.fullStart σ, (hg.fullStart σ).trans (hK σ hk)⟩) hf

/-- The token at hand is read again in the middle of a rule. -/
lemma rereadThere {g : Scanner → Scanner} [Scanner.Reading g] {f : TokenKind → Parse β}
    (hg : Rereads text g)
    (hf : ∀ k, Goes text R m ns (At k) (f k) out val) :
    Goes text R m ns K (Parse.rescan g >>= f) out val :=
  rescanAs Anywhere (fun σ hs _ => ⟨hg.sound hs, hg.fullStart σ, trivial⟩)
    fun k => (hf k).mono (fun _ h => h.2) fun _ h => h

/-- A token of one kind is at hand or not. -/
lemma isAt {k : TokenKind} {f : Bool → Parse β}
    (ht : Goes text R m ns (fun σ => K σ ∧ σ.kind = k) (f true) out val)
    (hf : Goes text R m ns (fun σ => K σ ∧ σ.kind ≠ k) (f false) out val) :
    Goes text R m ns K (Parse.isAt k >>= f) out val := by
  intro he s hs hk hc
  have hrun : (Parse.isAt k >>= f).run R s = (f (s.scanner.kind == k)).run R s := rfl
  rw [hrun] at hc ⊢
  cases hb : s.scanner.kind == k with
  | true =>
    rw [hb] at hc
    exact ht he s hs ⟨hk, by simpa using hb⟩ hc
  | false =>
    rw [hb] at hc
    exact hf he s hs ⟨hk, by simpa using hb⟩ hc

/-- A part that is built in a way of its own. -/
lemma having [HasNodes α] (ok : α → Prop) {p : Parse α} {f : α → Parse β}
    (hp : Builds text R Anywhere p ok)
    (hf : ∀ a, ok a → Goes text R m (ns ++ nodesIn a) Anywhere (f a) out val) :
    Goes text R m ns K (p >>= f) out val := sub hp hf fun _ _ => trivial

/-- Two ways to build the same part, by what the state tells, and what follows either. -/
lemma chooseIf [HasNodes α] {p : Parse Bool} {P : Scanner → Prop} [Tells p P] {q₁ q₂ : Parse α}
    {f : α → Parse β} {ok : α → Prop} (h₁ : Builds text R K₁ q₁ ok) (h₂ : Builds text R K₂ q₂ ok)
    (hf : ∀ a, ok a → Goes text R m (ns ++ nodesIn a) Anywhere (f a) out val)
    (hK₁ : ∀ σ, K σ → P σ → K₁ σ := by intros; simp_all)
    (hK₂ : ∀ σ, K σ → K₂ σ := by intros; simp_all) :
    Goes text R m ns K (p >>= fun b => if b = true then q₁ >>= f else q₂ >>= f) out val :=
  .askIf (.sub h₁ hf fun σ h => hK₁ σ h.1 h.2) (.sub h₂ hf hK₂)

/-- A part that is there if the state tells so. -/
lemma askSome [HasNodes α] {p : Parse Bool} {P : Scanner → Prop} [Tells p P] {q : Parse α}
    {f : Option α → Parse β} {ok : α → Prop} (hq : Builds text R K₁ q ok)
    (hf : ∀ o, (∀ a ∈ o, ok a) → Goes text R m (ns ++ nodesIn o) Anywhere (f o) out val)
    (hK₁ : ∀ σ, K σ → P σ → K₁ σ := by intros; simp_all) :
    Goes text R m ns K
      (p >>= fun b => if b = true then (some <$> q) >>= f else Pure.pure none >>= f) out val := by
  refine .askIf (.sub hq.some ?_ fun σ h => hK₁ σ h.1 h.2) (.pureThen ?_)
  · rintro _ ⟨a, rfl, ha⟩
    exact hf _ (by simpa using ha)
  · have h := hf none (by simp)
    rw [HasNodes.nodesIn_none, List.append_nil] at h
    exact h.anywhere

/-- A part that is there if a token is. -/
lemma acceptSome [HasNodes α] {k : TokenKind} {q : Parse α} {f : Option α → Parse β}
    {ok : α → Prop} (hq : Builds text R Anywhere q ok)
    (hf : ∀ o, (∀ a ∈ o, ok a) → Goes text R m (ns ++ nodesIn o) Anywhere (f o) out val)
    (hk : k ≠ .endOfFile := by decide) :
    Goes text R m ns K
      (Parse.accept k >>= fun b => if b = true then (some <$> q) >>= f else Pure.pure none >>= f)
      out val := by
  refine .acceptIf (.sub hq.some ?_) (.pureThen ?_) hk
  · rintro _ ⟨a, rfl, ha⟩
    exact hf _ (by simpa using ha)
  · have h := hf none (by simp)
    rw [HasNodes.nodesIn_none, List.append_nil] at h
    exact h.anywhere

/-- A step that is made only under a condition, and what follows in either case. -/
lemma onlyIf {c : Prop} [Decidable c] {p : Parse Unit} {f : Unit → Parse β}
    (hp : c → Builds text R K p fun _ => True)
    (hf : Goes text R m ns Anywhere (f ()) out val) :
    Goes text R m ns K (if c then p >>= f else f ()) out val := by
  split
  · refine sub (hp ‹_›) fun _ _ => ?_
    rw [HasNodes.nodesIn_unit, List.append_nil]
    exact hf
  · exact hf.anywhere

/-- A rule at the end of another. -/
lemma tail [HasNodes β] {p : Parse β} {ok : β → Prop} (hp : Builds text R K₁ p ok)
    (hout : ∀ b, out b = ns ++ nodesIn b := by simp)
    (hv : ∀ b, ok b → val b := by exact fun _ h => h)
    (hK : ∀ σ, K σ → K₁ σ := by intros; simp_all) :
    Goes text R m ns K p out val := by
  rw [← bind_pure p]
  exact sub hp (fun b hb => .pure (hout b) (hv b hb)) hK

end Goes

lemma accept_builds (k : TokenKind) (hk : k ≠ .endOfFile := by decide) :
    Builds text R Anywhere (accept k) fun _ => True := by
  refine ⟨fun m => ?_⟩
  rw [← bind_pure (accept k)]
  exact .accept (.pure rfl trivial) (.pure rfl trivial) hk

lemma expect_builds (k : TokenKind) (hk : k ≠ .endOfFile := by decide) :
    Builds text R K (expect k) fun _ => True := by
  refine ⟨fun m => ?_⟩
  rw [← bind_pure (expect k)]
  exact .expect (.pure rfl trivial) hk

lemma expecting_builds (k : TokenKind) (hk : k ≠ .endOfFile := by decide) :
    Builds text R K (expect_ k) fun _ => True := by
  refine ⟨fun m => ?_⟩
  rw [← bind_pure (expect_ k)]
  exact .expect_ (.pure rfl trivial) hk

lemma next_builds (hK : ∀ σ, K σ → σ.kind ≠ .endOfFile := by simp <;> grind) :
    Builds text R K next fun _ => True := by
  refine ⟨fun m => ?_⟩
  rw [← bind_pure next]
  exact .next (.pure rfl trivial) fun σ h => hK σ h.1

lemma accepting_builds (k : TokenKind) (hk : k ≠ .endOfFile := by decide) :
    Builds text R Anywhere (discard (accept k)) fun _ => True :=
  (accept_builds k hk).map (fun _ => rfl) fun _ _ => trivial

instance Builds.ofPeeks {p : Parse Bool} [Peeks p] : Builds text R Anywhere p fun _ => True := by
  refine ⟨fun m => ?_⟩
  rw [← bind_pure p]
  exact .look fun _ => .pure rfl trivial

lemma Builds.and {p q : Parse Bool} (hp : Builds text R Anywhere p fun _ => True)
    (hq : Builds text R Anywhere q fun _ => True) :
    Builds text R Anywhere (p <&&> q) fun _ => True := by
  refine ⟨fun m => ?_⟩
  refine .sub hp fun b _ => ?_
  cases b with
  | true => exact .tail hq
  | false => exact .pure rfl trivial

lemma Builds.or {p q : Parse Bool} (hp : Builds text R Anywhere p fun _ => True)
    (hq : Builds text R Anywhere q fun _ => True) :
    Builds text R Anywhere (p <||> q) fun _ => True := by
  refine ⟨fun m => ?_⟩
  refine .sub hp fun b _ => ?_
  cases b with
  | true => exact .pure rfl trivial
  | false => exact .tail hq

/-- A part behind a token, if the token is there. -/
lemma behind_builds [HasNodes α] {k : TokenKind} {p : Parse α} {ok : α → Prop}
    (h : Builds text R Anywhere p ok) (hk : k ≠ .endOfFile := by decide) :
    Builds text R Anywhere
      (accept k >>= fun b => if b = true then p >>= fun a => pure (some a) else pure none)
      fun o => ∀ a ∈ o, ok a := by
  refine ⟨fun m => ?_⟩
  refine .acceptIf (.sub h fun a ha => .pure (by simp) ?_) (.pure rfl (by simp)) hk
  simpa using ha

instance semicolon_builds : Builds text R Anywhere semicolon fun _ => True := by
  refine ⟨fun m => ?_⟩
  refine .acceptIf (.pure rfl trivial) (.askIf (.pure rfl trivial) ?_)
  rw [← bind_pure (expect_ _)]
  exact .expect_ (.pure rfl trivial)

/-! ### Nodes of a form -/

namespace Goes

variable {form : Form} {parts : List Part} {flags : NodeFlags}

/-- A node of a form that is fit by its parts, at the end of a rule. -/
lemma buildAs (hfit : Fits form parts flags)
    (hr : isRuled (.form form) = true ∧ form ≠ .importClause ∧
      form ≠ .expressionWithTypeArguments := by decide)
    (hn : parts.flatMap Part.bare = ns := by simp) :
    Goes text R m ns K (Parse.finish form m.pos parts flags) nodesIn Usable :=
  .finish hfit (fun _ _ => Estree.usable_of_form rfl hr) hn

/-- A node whose parts are enough for it, at the end of a rule. -/
lemma build
    (hw : ∀ w ∈ Estree.enough form, Supplies parts w := by
      unfold Estree.enough
      try unfold Estree.wants
      simp only [List.forall_mem_cons, List.not_mem_nil, false_implies, implies_true,
        Estree.Supplies,
        Part.under_cons, Part.under_nil, Part.role?_one, Part.role?_many, Part.role?_data,
        Part.role?_optional, Part.bare_one, Part.bare_many, Part.bare_data, Part.bare_optional,
        Option.some.injEq, reduceCtorEq, if_true, if_false, List.nil_append, List.append_nil]
        <;> simp_all)
    (hr : isRuled (.form form) = true ∧ form ≠ .importClause ∧
      form ≠ .expressionWithTypeArguments := by decide)
    (hn : parts.flatMap Part.bare = ns := by first | (simp; done) | simp_all) :
    Goes text R m ns K (Parse.finish form m.pos parts flags) nodesIn Usable :=
  .buildAs (Estree.fits_of_enough hw) hr hn

/-- An element that is left out, which is stray wherever it is converted. -/
lemma omitted (hK : ∀ σ, K σ → σ.fullStart = m.pos := by intros; simp_all) :
    Goes text R m [] K (node (.form .omittedExpression) m.pos m.pos) nodesIn Usable := by
  have hfits : Fits .omittedExpression [] {} := fun _ _ _ _ => .inl (.inl rfl)
  exact fun _ s hs hk _ => ⟨Since.of_eq (hs.form (hK _ hk).symm rfl hfits) rfl rfl,
    Estree.usable_of_form rfl (by decide)⟩

end Goes

/-! ### Goals -/

/-- What a goal builds. The rest of a dotted name is a module with all that it needs. -/
def Reached : Goal → Node → Prop
  | .innerNamespace _, n => Usable n ∧ Supplied (Estree.Needs.must n .name) ∧ Estree.Chained n
  | _, n => Usable n

lemma usable_of_reached {g : Goal} {n : Node} (h : Reached g n) : Usable n := by
  cases g
  case innerNamespace => exact h.1
  all_goals exact h

/-- Goals are reached. -/
class Reaches (text : Source) (R : Runner) : Prop where
  reach?_builds (g : Goal) :
    Builds text R Anywhere (reach? g) fun o => ∃ n, o = some n ∧ Reached g n

section Reaches

variable [Reaches text R]

instance reach?_builds (g : Goal) :
    Builds text R Anywhere (reach? g) fun o => ∃ n, o = some n ∧ Usable n :=
  (Reaches.reach?_builds g).mono fun _ ⟨n, hn, h⟩ => ⟨n, hn, usable_of_reached h⟩

/-- A goal that may be missed where its node is not needed. -/
instance reach?_usable (g : Goal) :
    Builds text R Anywhere (reach? g) fun o => ∀ n ∈ o, Usable n := by
  refine (reach?_builds g).mono ?_
  rintro _ ⟨n, rfl, hn⟩
  simpa using hn

instance reach_reached (g : Goal) : Builds text R Anywhere (reach g) (Reached g) := by
  refine ⟨fun m => ?_⟩
  refine .sub (Reaches.reach?_builds g) ?_
  rintro _ ⟨n, rfl, hn⟩
  exact .pure (by simp) hn

instance reach_builds (g : Goal) : Builds text R Anywhere (reach g) Usable :=
  (reach_reached g).mono fun _ => usable_of_reached

end Reaches

end EstreeLint.Grammar
