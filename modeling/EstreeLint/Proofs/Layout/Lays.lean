import EstreeLint.Proofs.Layout.Laid

/-!
What a rule of the grammar lays out, told step by step.

A rule `Lays` the nodes in what it gives: they come between the place where it starts and the place
where it stops, whatever it finds in the text. `Steps R m ns p out` is about the inside of a rule:
if the nodes `ns` have been laid out since the place `m`, then the nodes `out a` have when `p` gives
`a`.
-/

namespace EstreeLint.Grammar

open Parse

variable {α β : Type} {R : Runner} {m : Place} {ns : List Node} {p : Parse α} {f : α → Parse β}
  {out : β → List Node}

/-! ### Steps without nodes -/

/-- The step stays on the text and never goes back in it. -/
class Passes (p : Parse α) : Prop where
  passes (R : Runner) (s : State) : s.scanner.Placed →
    (p.run R s).2.scanner.Placed ∧ s.scanner.fullStart ≤ (p.run R s).2.scanner.fullStart

section Passes

instance (priority := low) [Peeks p] : Passes p where
  passes R s h := by
    rw [Peeks.scanner_run]
    exact ⟨h, Nat.le_refl _⟩

instance [Passes p] [∀ a, Passes (f a)] : Passes (p >>= f) where
  passes R s h := by
    obtain ⟨h₁, hle₁⟩ := Passes.passes (p := p) R s h
    obtain ⟨h₂, hle₂⟩ := Passes.passes (p := f (p.run R s).1) R _ h₁
    exact ⟨h₂, Nat.le_trans hle₁ hle₂⟩

instance [Passes p] (g : α → β) : Passes (g <$> p) where
  passes R s h := Passes.passes (p := p) R s h

instance [Passes p] : Passes (discard p) where
  passes R s h := Passes.passes (p := p) R s h

instance {c : Prop} [Decidable c] {p q : Parse α} [Passes p] [Passes q] :
    Passes (if c then p else q) := by
  split <;> infer_instance

instance (g : Scanner → Scanner) [Scanner.Moves g] : Passes (takeWith g) where
  passes _ _ h := ⟨Scanner.Moves.placed h, Scanner.Moves.fullStart_le h⟩

instance (g : Scanner → Scanner) [Scanner.Moves g] : Passes (rescan g) where
  passes _ _ h := ⟨Scanner.Moves.placed h, Scanner.Moves.fullStart_le h⟩

instance : Passes next := by unfold next; infer_instance

instance : Passes nextToken := by unfold nextToken; infer_instance

instance (fault : SyntaxFault) : Passes (error fault) := by unfold error; infer_instance

instance : Passes giveUp := by unfold giveUp; infer_instance

instance (k : TokenKind) : Passes (accept k) := by unfold accept; infer_instance

instance (k : TokenKind) : Passes (expect k) := by unfold expect; infer_instance

instance (k : TokenKind) : Passes (expect_ k) := by unfold expect_; infer_instance

instance : Passes semicolon := by unfold semicolon; infer_instance

set_option synthInstance.maxSize 400 in
instance (close : TokenKind) (before : Nat) : Passes (separation close before) := by
  unfold separation
  dsimp only
  infer_instance

instance {p q : Parse Bool} [Passes p] [Passes q] : Passes (p <&&> q) where
  passes R s h := by
    rw [run_and]
    split
    · exact Passes.passes (p := p >>= fun _ => q) R s h
    · exact Passes.passes R s h

instance {p q : Parse Bool} [Passes p] [Passes q] : Passes (p <||> q) where
  passes R s h := by
    rw [run_or]
    split
    · exact Passes.passes R s h
    · exact Passes.passes (p := p >>= fun _ => q) R s h

end Passes

/-! ### The judgements -/

/-- The rule lays out the nodes in what it gives, from where it starts. -/
class Lays [HasNodes α] (R : Runner) (p : Parse α) : Prop where
  lays (s : State) : s.scanner.Placed →
    (p.run R s).2.scanner.Placed ∧
      Laid (p.run R s).2.arena s.place (nodesIn (p.run R s).1) (p.run R s).2.place

def Steps (R : Runner) (m : Place) (ns : List Node) (p : Parse α) (out : α → List Node) : Prop :=
  ∀ s : State, s.scanner.Placed → Laid s.arena m ns s.place →
    (p.run R s).2.scanner.Placed ∧
      Laid (p.run R s).2.arena m (out (p.run R s).1) (p.run R s).2.place

/-- A run leaves what has been laid out as it is. -/
lemma Laid.extend {s t : State} {a b : Place} (h : Laid s.arena a ns b) (ht : s.Extends t) :
    Laid t.arena a ns b := by
  obtain ⟨later, hlater⟩ := ht.arena
  rw [hlater]
  exact h.grow

lemma State.Extends.size_le {s t : State} (h : s.Extends t) : s.arena.size ≤ t.arena.size := by
  obtain ⟨later, hlater⟩ := h.arena
  simp [hlater]

namespace Steps

lemma pure {b : β} (h : out b = ns := by simp) : Steps R m ns (pure b) out :=
  fun _ hs hl => ⟨hs, h ▸ hl⟩

lemma pureThen {a : α} (h : Steps R m ns (f a) out) : Steps R m ns (Pure.pure a >>= f) out := h

/-- Nodes that have been laid out may be forgotten. -/
lemma forget (ms : List Node) {p : Parse β} (h : Steps R m ms p out)
    (hm : ms.Sublist ns := by simp) : Steps R m ns p out :=
  fun s hs hl => h s hs (hl.sublist hm)

/-- A step that lays out nothing. -/
lemma pass [Passes p] (hf : ∀ a, Steps R m ns (f a) out) : Steps R m ns (p >>= f) out := by
  intro s hs hl
  obtain ⟨hp, hle⟩ := Passes.passes (p := p) R s hs
  have hext := p.extends_run R s
  exact hf _ _ hp ((hl.extend hext).back ⟨hle, hext.size_le⟩)

/-- Two steps since the same place. -/
lemma bind {view : α → List Node} (hp : Steps R m ns p view)
    (hf : ∀ a, Steps R m (view a) (f a) out) : Steps R m ns (p >>= f) out := by
  intro s hs hl
  obtain ⟨hs', hl'⟩ := hp s hs hl
  exact hf _ _ hs' hl'

/-- **A rule inside another.** What it lays out comes behind what has been laid out. -/
lemma part [HasNodes α] (hp : Lays R p) (hf : ∀ a, Steps R m (ns ++ nodesIn a) (f a) out) :
    Steps R m ns (p >>= f) out := by
  intro s hs hl
  obtain ⟨hs', hl'⟩ := hp.lays s hs
  exact hf _ _ hs' ((hl.extend (p.extends_run R s)).append hl')

/-- A rule inside another, found by its name. -/
lemma sub [HasNodes α] [Lays R p] (hf : ∀ a, Steps R m (ns ++ nodesIn a) (f a) out) :
    Steps R m ns (p >>= f) out := part inferInstance hf

lemma ite {c : Prop} [Decidable c] {p q : Parse β} (hp : Steps R m ns p out)
    (hq : Steps R m ns q out) : Steps R m ns (if c then p else q) out := by
  split
  · exact hp
  · exact hq

/-- What follows where a step has been asked for. -/
lemma askIf {p : Parse Bool} [Passes p] {q₁ q₂ : Parse β} (h₁ : Steps R m ns q₁ out)
    (h₂ : Steps R m ns q₂ out) : Steps R m ns (p >>= fun b => if b = true then q₁ else q₂) out :=
  pass fun _ => ite h₁ h₂

/-- A step that is made only under a condition, and what follows in either case. -/
lemma onlyIf {c : Prop} [Decidable c] {p : Parse Unit} [Passes p] {f : Unit → Parse β}
    (hf : Steps R m ns (f ()) out) : Steps R m ns (if c then p >>= f else f ()) out :=
  ite (pass fun _ => hf) hf

/-- Two ways to lay out the same part, and what follows either. -/
lemma choose [HasNodes α] {c : Prop} [Decidable c] {q₁ q₂ : Parse α} [Lays R q₁] [Lays R q₂]
    (hf : ∀ a, Steps R m (ns ++ nodesIn a) (f a) out) :
    Steps R m ns (if c then q₁ >>= f else q₂ >>= f) out :=
  ite (sub hf) (sub hf)

/-- A part that is there under a condition. -/
lemma perhaps [HasNodes α] {c : Prop} [Decidable c] {q : Parse (Option α)} [Lays R q]
    {f : Option α → Parse β} (hf : ∀ o, Steps R m (ns ++ nodesIn o) (f o) out) :
    Steps R m ns (if c then q >>= f else Pure.pure none >>= f) out := by
  refine ite (sub hf) ?_
  have h := hf none
  rw [HasNodes.nodesIn_none, List.append_nil] at h
  exact h

/-- A rule at the end of another. -/
lemma lastPart [HasNodes β] {p : Parse β} (hp : Lays R p)
    (hout : ∀ b, out b = ns ++ nodesIn b := by simp) : Steps R m ns p out := by
  rw [← bind_pure p]
  exact part hp fun b => pure (hout b)

/-- A rule at the end of another, found by its name. -/
lemma last [HasNodes β] {p : Parse β} [Lays R p] (hout : ∀ b, out b = ns ++ nodesIn b := by simp) :
    Steps R m ns p out := lastPart inferInstance hout

end Steps

/-! ### Rules -/

namespace Lays

section

variable [HasNodes β]

/-- A rule that is to make a node notes where it starts. -/
lemma start {f : Nat → Parse β} (hf : ∀ m : Place, Steps R m [] (f m.pos) nodesIn) :
    Lays R (pos >>= f) where
  lays s h := hf s.place s h (.nil (Place.le_refl _))

/-- A rule that starts with other steps. -/
lemma of {p : Parse β} (hp : ∀ m : Place, Steps R m [] p nodesIn) : Lays R p where
  lays s h := hp s.place s h (.nil (Place.le_refl _))

/-- A rule that looks at the state first. -/
lemma look [Peeks p] (hf : ∀ a, Lays R (f a)) : Lays R (p >>= f) where
  lays s h := by
    have hscanner := Peeks.scanner_run (p := p) R s
    have hplace : (p.run R s).2.place = s.place := by
      simp only [State.place, hscanner, Peeks.arena_run]
    have hf := (hf (p.run R s).1).lays _ (hscanner ▸ h)
    rwa [hplace] at hf

end

variable [HasNodes α]

lemma pure {a : α} (h : nodesIn a = [] := by rfl) : Lays R (Pure.pure a) where
  lays _ hs := ⟨hs, h ▸ .nil (Place.le_refl _)⟩

lemma ite {c : Prop} [Decidable c] {p q : Parse α} (hp : Lays R p) (hq : Lays R q) :
    Lays R (if c then p else q) := by
  split
  · exact hp
  · exact hq

/-- One rule or another, by what the state tells. -/
lemma lookIf {p : Parse Bool} [Peeks p] {q₁ q₂ : Parse α} (h₁ : Lays R q₁) (h₂ : Lays R q₂) :
    Lays R (p >>= fun b => if b = true then q₁ else q₂) := look fun _ => ite h₁ h₂

lemma map [HasNodes β] {g : α → β} (h : Lays R p) (hn : ∀ a, nodesIn (g a) = nodesIn a) :
    Lays R (g <$> p) where
  lays s hs := by
    obtain ⟨hs', hl⟩ := h.lays s hs
    exact ⟨hs', (hn _).symm ▸ hl⟩

instance [Lays R p] : Lays R (some <$> p) := map inferInstance fun _ => rfl

lemma inContext {add drop : Context} (h : Lays R p) : Lays R (withContext add drop p) where
  lays s hs := h.lays { s with context := s.context.change add drop } hs

instance [Lays R p] (add drop : Context) : Lays R (withContext add drop p) :=
  inContext inferInstance

lemma nest {tooDeep : Parse α} (h : Lays R tooDeep) (hp : Lays R p) :
    Lays R (nested tooDeep p) := by
  refine look fun _ => ite (of fun _ => .pass fun _ => .lastPart h) ⟨fun s hs => ?_⟩
  exact hp.lays { s with depth := s.depth + 1 } hs

/-- What is taken back has laid out nothing. -/
lemma tried {p : Parse (Option α)} (h : Lays R p) : Lays R (attempt p) where
  lays s hs := by
    cases hrun : (p.run R s).1 with
    | none =>
      rw [run_attempt_of_none hrun]
      exact ⟨hs, .nil (Place.le_refl _)⟩
    | some a =>
      rw [run_attempt_of_some hrun]
      exact h.lays s hs

/-- A parenthesis that is ruled out has laid out nothing. -/
lemma triedUnlessRuledOut {p : Parse (Option α)} (h : Lays R p) : Lays R (unlessRuledOut p) where
  lays s hs := by
    unfold unlessRuledOut
    dsimp only
    split
    · exact ⟨hs, .nil (Place.le_refl _)⟩
    · have hrun := h.tried.lays s hs
      split
      · next hnone =>
        rw [Option.isNone_iff_eq_none.1 hnone] at hrun
        exact hrun
      · exact hrun

end Lays

/-! ### Nodes -/

@[simp] lemma HasNodes.flatMap_parts (parts : List Part) :
    parts.flatMap nodesIn = parts.flatMap Part.bare := rfl

namespace Steps

variable {kind : NodeKind} {form : Form} {parts : List Part} {flags : NodeFlags}

/-- **All that has been laid out since the place becomes the parts of a node.** -/
lemma nodeHere
    (happ : kind = .form .expressionWithTypeArguments → Applies (parts.flatMap Part.nodes))
    (hn : parts.flatMap Part.bare = ns := by simp) :
    Steps R m ns (pos >>= fun stop => node kind m.pos stop parts flags) nodesIn := by
  intro s hs hl
  subst hn
  have hwrap := hl.wrap (a := m) kind flags parts (Nat.le_refl _) happ
  rw [← Array.size_push] at hwrap
  exact ⟨hs, hwrap⟩

lemma finish
    (hform : form ≠ .expressionWithTypeArguments := by decide)
    (hn : parts.flatMap Part.bare = ns := by simp) :
    Steps R m ns (Parse.finish form m.pos parts flags) nodesIn :=
  nodeHere (fun e => absurd (NodeKind.form.inj e) hform) hn

/-- A node over nothing. -/
lemma empty (hkind : kind ≠ .form .expressionWithTypeArguments := by decide)
    (hn : parts.flatMap Part.bare = [] := by simp) :
    Steps R m [] (node kind m.pos m.pos parts flags) nodesIn := by
  intro s hs hl
  have hle := hl.le
  have hnil : Laid s.arena ⟨m.pos, m.size⟩ (parts.flatMap Part.bare) ⟨m.pos, s.arena.size⟩ :=
    hn ▸ .nil ⟨Nat.le_refl _, hle.2⟩
  have hwrap := hnil.wrap (a := m) kind flags parts (Nat.le_refl _) fun e => absurd e hkind
  rw [← Array.size_push] at hwrap
  exact ⟨hs, hwrap.back ⟨hle.1, Nat.le_refl _⟩⟩

/-- A name stands for the parameter that it names. -/
lemma wrap {name : Node} {f : Node → Parse β}
    (hf : ∀ param, Steps R m (ns ++ [param]) (f param) out) :
    Steps R m (ns ++ [name])
      (node (.form .parameter) name.pos name.stop [.one .name name] >>= f) out := by
  intro s hs hl
  obtain ⟨c, h₁, h₂⟩ := hl.append_inv
  cases h₂ with
  | cons hpos hlive inner rest =>
    have hle := rest.le
    have hname : Laid s.arena ⟨name.pos, c.size⟩ [name] ⟨name.stop, s.arena.size⟩ :=
      .cons (Nat.le_refl _) hlive inner (.nil ⟨Nat.le_refl _, hle.2⟩)
    have hparam := hname.wrap (.form .parameter) {} [.one .name (some name)] hpos
      fun e => by cases e
    rw [← Array.size_push] at hparam
    refine hf _ _ hs ((h₁.extend ((node _ _ _ _).extends_run R s)).append (hparam.back ?_))
    exact ⟨hle.1, Nat.le_refl _⟩

end Steps

/-! ### Leaves -/

section Leaves

instance (k : TokenKind) (payload : Payload) : Lays R (leaf (.token k) payload) :=
  .start fun _ => .pass fun _ => .nodeHere fun e => by cases e

instance : Lays R tokenNode :=
  .start fun _ => .pass fun _ => .pass fun _ => .nodeHere fun e => by cases e

instance : Lays R missing := .start fun _ => .empty

instance (k : TokenKind) : Lays R (optionalToken k) :=
  .of fun _ => .askIf (.sub fun _ => .pure) .pure

instance : Lays R literal :=
  .of fun _ => .pass fun _ => .pass fun _ => .ite (.pass fun _ => .pass fun _ => .last)
    (.pass fun _ => .last)

instance : Lays R word := .of fun _ => .pass fun _ => .last

instance : Lays R privateIdentifier := .of fun _ => .pass fun _ => .last

instance : Lays R identifierName := .of fun _ => .askIf .last (.pass fun _ => .last)

instance : Lays R identifier :=
  .of fun _ => .askIf .last (.askIf (.pass fun _ => .last) (.pass fun _ => .last))

end Leaves

/-! ### Repetition -/

section Repetition

/-- A value that is replaced as long as a rule makes something of it. -/
lemma Steps.iterate {g : α → Parse (Option α)} {a : α} (view : α → List Node)
    (hg : ∀ a, Steps R m (view a) (g a) fun o => view (o.getD a))
    (hns : view a = ns := by simp) : Steps R m ns (iterate g a) view := by
  have upTo (n : Nat) (a : α) : Steps R m (view a) (iterateUpTo g n a) view := by
    induction n generalizing a with
    | zero => exact .pass fun _ => .pure rfl
    | succ n ih =>
      refine .bind (hg a) fun o => ?_
      cases o with
      | none => exact .pure rfl
      | some b => exact ih b
  subst hns
  exact .pass fun s => upTo _ a

lemma Steps.listFrom {start : Nat} {nodes : List Node} {f : NodeList → Parse β}
    (hf : ∀ span, Steps R m ns (f ⟨nodes, span⟩) out) :
    Steps R m ns (Parse.listFrom start nodes >>= f) out :=
  fun s hs hl => hf _ s hs hl

lemma Steps.lastFrom? {start : Nat} : Steps R m ns (Parse.listFrom? start ns) nodesIn := by
  cases ns with
  | nil => exact .pure
  | cons n ns => exact fun s hs hl => ⟨hs, hl⟩

lemma Steps.listFrom? {start : Nat} {nodes : List Node} {f : Option NodeList → Parse β}
    (hf : ∀ o : Option NodeList, nodesIn o = nodes → Steps R m ns (f o) out) :
    Steps R m ns (Parse.listFrom? start nodes >>= f) out := by
  unfold Parse.listFrom?
  cases nodes with
  | nil => exact hf none rfl
  | cons n nodes =>
    change Steps R m ns ((Parse.listFrom start (n :: nodes) >>= fun l => _) >>= f) out
    rw [bind_assoc]
    exact listFrom fun span => hf (some ⟨n :: nodes, span⟩) rfl

variable [HasNodes α]

lemma Lays.repeated {p : Parse (Option α)} (h : Lays R p) : Lays R (many p) := by
  have upTo (n : Nat) : Lays R (manyUpTo p n) := by
    induction n with
    | zero => exact .of fun _ => .pass fun _ => .pure
    | succ n ih =>
      refine .of fun _ => .sub fun o => ?_
      cases o with
      | none => exact .pure
      | some a => exact .sub fun l => .pure
  exact .look fun _ => upTo _

/-- A part behind a token, if the token is there. -/
instance (k : TokenKind) [Lays R p] :
    Lays R (accept k >>= fun b => if b = true then p >>= fun a => pure (some a) else pure none) :=
  .of fun _ => .askIf (.sub fun a => .pure) .pure

instance (k : TokenKind) [Lays R p] : Lays R (behind k p) := by unfold behind; infer_instance

variable {element : Parse Node} {close : TokenKind}

instance [Lays R element] : Lays R (commaList close element) := by
  have upTo (n : Nat) (trailing : Bool) : Lays R (elementsUpTo close element n trailing) := by
    induction n generalizing trailing with
    | zero => exact .of fun _ => .pass fun _ => .pure
    | succ n ih =>
      refine .of fun _ => .askIf .pure (.pass fun before => .sub fun first => .pass fun x => ?_)
      cases x with
      | comma =>
        have := ih true
        exact .sub fun rest => .pure
      | closed => exact .pure
      | broken giveUp =>
        have := ih false
        cases giveUp with
        | true => exact .pure
        | false => exact .sub fun rest => .pure
  refine .of fun _ => .pass fun start => .pass fun s => ?_
  exact .part (upTo _ false) fun x => .pass fun stop => .pure

instance [Lays R element] {opening : TokenKind} : Lays R (enclosedList opening close element) :=
  .of fun _ => .pass fun _ => .sub fun list => .pass fun _ => .pure

instance {stops : List TokenKind} {element : Parse (Option Node)} [Lays R element] :
    Lays R (listUntil stops element) := by
  have hbefore : Lays R (elementBefore stops element) := by
    refine .of fun _ => .askIf .pure (.pass fun before => .sub fun found => .pass fun start => ?_)
    exact .pass fun b => .ite (.pass fun _ => .pass fun _ => .pure) .pure
  refine .of fun _ => .pass fun start => .part hbefore.repeated fun found => ?_
  rw [← bind_pure (listFrom start _)]
  exact .listFrom fun span => .pure (HasNodes.nodesIn_options found).symm

instance [Lays R element] : Lays R (separated element) :=
  .of fun _ => .sub fun first => .part (.repeated inferInstance) fun rest => .pure

end Repetition

/-! ### Goals -/

/-- Goals are laid out. -/
class LaysGoals (R : Runner) : Prop where
  reach?_lays (g : Goal) : Lays R (reach? g)

section Goals

variable [LaysGoals R]

instance (g : Goal) : Lays R (reach? g) := LaysGoals.reach?_lays g

instance (g : Goal) : Lays R (reach g) := by
  refine .of fun _ => .sub fun o => ?_
  cases o with
  | some n => exact .pure
  | none => exact .last

end Goals

end EstreeLint.Grammar
