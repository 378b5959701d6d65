import EstreeLint.Proofs.Shapes.Shaped

/-!
What a rule of the grammar shapes, told step by step.

From a clear scanner at `q` or behind it, a rule that `Shapes` comes to such a scanner, and what it
gives stands behind `q`. Inside of a rule a step `Reads` what the rule is to give. The rules are put
together from their steps by instances, with what is known growing from step to step.
-/

namespace EstreeLint.Grammar

open Parse

variable {α β : Type} [Ranged α] {text : Source} {R : Runner} {p : Parse α}
  {f : α → Parse β} {out : β → Prop} {P : α → Prop} {q : Nat} {Γ Δ : Prop}

/-! ### The judgements -/

/-- The run from the state comes to a clear scanner at `q` or behind it and gives what `out` holds
of. -/
def Ended (text : Source) (R : Runner) (q : Nat) (p : Parse β) (out : β → Prop) (s : State) :
    Prop :=
  (p.run R s).2.scanner.Clear text ∧ q ≤ (p.run R s).2.scanner.fullStart ∧ out (p.run R s).1

/-- Runs from a clear scanner at `q` or behind it come to such a scanner. -/
def Runs (text : Source) (R : Runner) (q : Nat) (p : Parse β) (out : β → Prop) : Prop :=
  ∀ s : State, s.scanner.Clear text → q ≤ s.scanner.fullStart → Ended text R q p out s

/-- Where `Γ` is known, the step gives what `out` holds of. -/
class Reads (Γ : Prop) (text : Source) (R : Runner) (q : Nat) (p : Parse β) (out : β → Prop) :
    Prop where
  runs : Γ → Runs text R q p out

/-- The rule gives what stands behind `q`. -/
abbrev Shapes (Γ : Prop) (text : Source) (R : Runner) (q : Nat) (p : Parse α) : Prop :=
  Reads Γ text R q p (From text q)

/-! ### Control -/

namespace Reads

lemma bind (hp : Shapes Γ text R q p)
    (hf : ∀ a, Reads (From text q a ∧ Γ) text R q (f a) out) :
    Reads Γ text R q (p >>= f) out where
  runs hΓ s hs hq := by
    obtain ⟨hs', hq', ha⟩ := hp.runs hΓ s hs hq
    exact (hf _).runs ⟨ha, hΓ⟩ _ hs' hq'

instance [hp : Shapes Γ text R q p]
    [hf : ∀ a, Reads (From text q a ∧ Γ) text R q (f a) out] :
    Reads Γ text R q (p >>= f) out := bind hp hf

/-- A step that is run for what it does to the state. -/
lemma pass {γ : Type} {p : Parse γ} {f : γ → Parse β} [Clearing p] [Passes p]
    (hf : ∀ a, Reads Γ text R q (f a) out) : Reads Γ text R q (p >>= f) out where
  runs hΓ s hs hq := by
    have hle := (Passes.passes (p := p) R s hs.placed).2
    exact (hf _).runs hΓ _ (Clearing.clear text R s hs) (Nat.le_trans hq hle)

lemma known {p : Parse β} (h : Reads Δ text R q p out) (hΓ : Γ → Δ) : Reads Γ text R q p out :=
  ⟨fun h' => h.runs (hΓ h')⟩

lemma given {p : Parse β} {Q : Prop} (hQ : Q) (h : Reads (Q ∧ Γ) text R q p out) :
    Reads Γ text R q p out := h.known fun hΓ => ⟨hQ, hΓ⟩

/-- A fact that is known may be used outside of the run. -/
lemma use {p : Parse β} {Q : Prop} (h : Q → Reads (Q ∧ Γ) text R q p out) :
    Reads (Q ∧ Γ) text R q p out := ⟨fun hΓ => (h hΓ.1).runs hΓ⟩

lemma done {b : β} (h : out b) : Reads Γ text R q (pure b) out := ⟨fun _ _ hs hq => ⟨hs, hq, h⟩⟩

/-- What a step comes to is known from then on. -/
lemma andThen {γ : Type} {p : Parse γ} {f : γ → Parse β} {P : γ → Prop} (hp : Reads Γ text R q p P)
    (hf : ∀ a, P a → Reads Γ text R q (f a) out) : Reads Γ text R q (p >>= f) out where
  runs hΓ s hs hq := by
    obtain ⟨hs', hq', ha⟩ := hp.runs hΓ s hs hq
    exact (hf _ ha).runs hΓ _ hs' hq'

lemma weaken {p : Parse β} {out' : β → Prop} (h : Reads Γ text R q p out)
    (hout : ∀ {b}, out b → out' b) : Reads Γ text R q p out' where
  runs hΓ s hs hq := by
    obtain ⟨hs', hq', hb⟩ := h.runs hΓ s hs hq
    exact ⟨hs', hq', hout hb⟩

lemma startOf {f : Nat → Parse β} {out : Nat → β → Prop}
    (hmono : ∀ {p p' b}, p ≤ p' → out p' b → out p b) (hf : ∀ p, Reads Γ text R p (f p) (out p)) :
    Reads Γ text R q (pos >>= f) (out q) where
  runs hΓ s hs hq := by
    obtain ⟨hs', hle, hb⟩ := (hf s.scanner.fullStart).runs hΓ s hs (Nat.le_refl _)
    exact ⟨hs', Nat.le_trans hq hle, hmono hq hb⟩

/-- A rule that is to make a node notes where it starts. -/
lemma start {f : Nat → Parse α} (hf : ∀ p, Shapes Γ text R p (f p)) :
    Shapes Γ text R q (pos >>= f) := startOf From.mono hf

lemma ite {c : Prop} [Decidable c] {p p' : Parse β} (h : c → Reads Γ text R q p out)
    (h' : ¬ c → Reads Γ text R q p' out) : Reads Γ text R q (if c then p else p') out := by
  split
  · exact h ‹_›
  · exact h' ‹_›

instance {c : Prop} [Decidable c] {p p' : Parse β} [h : Reads Γ text R q p out]
    [h' : Reads Γ text R q p' out] : Reads Γ text R q (if c then p else p') out :=
  ite (fun _ => h) fun _ => h'

/-- Two ways to read the same part, and what follows either. -/
lemma choose {c : Prop} [Decidable c] {p p' : Parse α} (hp : Shapes Γ text R q p)
    (hp' : Shapes Γ text R q p')
    (hf : ∀ a, Reads (From text q a ∧ Γ) text R q (f a) out) :
    Reads Γ text R q (if c then p >>= f else p' >>= f) out :=
  ite (fun _ => bind hp hf) fun _ => bind hp' hf

/-- What a rule may give, by whether it does. -/
lemma ofOption {p : Parse (Option α)} {f : Option α → Parse β} (hp : Shapes Γ text R q p)
    (hnone : Reads Γ text R q (f none) out)
    (hsome : ∀ a, Reads (From text q a ∧ Γ) text R q (f (some a)) out) :
    Reads Γ text R q (p >>= f) out := by
  refine hp.bind fun o => ?_
  cases o with
  | none => exact hnone.known And.right
  | some a => exact (hsome a).known fun h => ⟨h.1 a rfl, h.2⟩

/-- What a rule gives, taken apart. -/
lemma ofPair {γ : Type} [Ranged γ] {p : Parse (α × γ)} {f : α × γ → Parse β}
    (hp : Shapes Γ text R q p)
    (hf : ∀ a c, Reads (From text q a ∧ From text q c ∧ Γ) text R q (f (a, c)) out) :
    Reads Γ text R q (p >>= f) out :=
  hp.bind fun x => (hf x.1 x.2).known fun h => ⟨h.1.1, h.1.2, h.2⟩

end Reads

namespace Shapes

open Reads

instance (priority := low) {α : Type} [Free α] {p : Parse α} [Clearing p] [Passes p] :
    Shapes Γ text R q p where
  runs _ s hs hq := by
    have hle := (Passes.passes (p := p) R s hs.placed).2
    exact ⟨Clearing.clear text R s hs, Nat.le_trans hq hle, From.ofFree _⟩

instance {a : α} [h : Behind Γ text q a] : Shapes Γ text R q (pure a) :=
  ⟨fun hΓ _ hs hq => ⟨hs, hq, h.holds hΓ⟩⟩

instance : Shapes Γ text R q pos := ⟨fun _ _ hs hq => ⟨hs, hq, hq⟩⟩

instance [h : Shapes Γ text R q p] : Shapes Γ text R q (some <$> p) where
  runs hΓ s hs hq := by
    obtain ⟨hs', hq', ha⟩ := h.runs hΓ s hs hq
    exact ⟨hs', hq', fun _ hb => Option.some.inj hb ▸ ha⟩

instance [h : Shapes Γ text R q p] : Shapes Γ text R q (discard p) where
  runs hΓ s hs hq := by
    obtain ⟨hs', hq', -⟩ := h.runs hΓ s hs hq
    exact ⟨hs', hq', trivial⟩

lemma inContext {add drop : Context} (h : Shapes Γ text R q p) :
    Shapes Γ text R q (withContext add drop p) :=
  ⟨fun hΓ s hs hq => h.runs hΓ { s with context := s.context.change add drop } hs hq⟩

instance [Shapes Γ text R q p] (add drop : Context) : Shapes Γ text R q (withContext add drop p) :=
  inContext inferInstance

instance [h : Shapes Γ text R q p] : Shapes Γ text R q (deeper p) :=
  ⟨fun hΓ s hs hq => h.runs hΓ { s with depth := s.depth + 1 } hs hq⟩

lemma ofNested {tooDeep : Parse α} (h : Shapes Γ text R q tooDeep) (hp : Shapes Γ text R q p) :
    Shapes Γ text R q (nested tooDeep p) :=
  pass fun _ => ite (fun _ => pass fun _ => h) fun _ => inferInstance

instance {tooDeep : Parse α} [Shapes Γ text R q tooDeep] [Shapes Γ text R q p] :
    Shapes Γ text R q (nested tooDeep p) := ofNested inferInstance inferInstance

/-- What is taken back has given nothing. -/
instance {p : Parse (Option α)} [h : Shapes Γ text R q p] : Shapes Γ text R q (attempt p) where
  runs hΓ s hs hq := by
    unfold Ended
    cases hrun : (p.run R s).1 with
    | none =>
      rw [run_attempt_of_none hrun]
      exact ⟨hs, hq, fun _ => nofun⟩
    | some a =>
      rw [run_attempt_of_some hrun]
      exact h.runs hΓ s hs hq

instance {p : Parse (Option α)} [h : Shapes Γ text R q p] :
    Shapes Γ text R q (unlessRuledOut p) where
  runs hΓ s hs hq := by
    have htried : Shapes Γ text R q (attempt p) := inferInstance
    unfold Ended unlessRuledOut
    dsimp only
    split
    · exact ⟨hs, hq, fun _ => nofun⟩
    · have hrun := htried.runs hΓ s hs hq
      split
      · exact ⟨hrun.1, hrun.2.1, fun _ => nofun⟩
      · exact hrun

/-! ### Repetition -/

instance {p : Parse (Option α)} [h : Shapes Γ text R q p] : Shapes Γ text R q (many p) := by
  have upTo (n : Nat) : Shapes Γ text R q (manyUpTo p n) := by
    induction n with
    | zero => exact pass fun _ => inferInstance
    | succ n ih =>
      refine ofOption h inferInstance fun a => ?_
      exact bind (ih.known And.right) fun as => inferInstance
  exact pass fun s => upTo _

lemma iterate {g : α → Parse (Option α)} {a : α} (ha : Behind Γ text q a)
    (hg : ∀ a, Shapes (From text q a ∧ Γ) text R q (g a)) :
    Shapes Γ text R q (iterate g a) := by
  have upTo (n : Nat) (a : α) : Shapes (From text q a ∧ Γ) text R q (iterateUpTo g n a) := by
    induction n generalizing a with
    | zero => exact pass fun _ => inferInstance
    | succ n ih =>
      refine ofOption (hg a) inferInstance fun b => ?_
      exact (ih b).known fun h => ⟨h.1, h.2.2⟩
  exact pass fun s => (upTo _ a).known fun hΓ => ⟨ha.holds hΓ, hΓ⟩

instance {g : α → Parse (Option α)} {a : α} [ha : Behind Γ text q a]
    [hg : ∀ a, Shapes (From text q a ∧ Γ) text R q (g a)] :
    Shapes Γ text R q (Parse.iterate g a) := iterate ha hg

section Lists

variable {start : Nat} {nodes : List Node} {element : Parse Node} {opening close : TokenKind}

instance [Behind Γ text q start] [Behind Γ text q nodes] :
    Shapes Γ text R q (listFrom start nodes) := by
  unfold listFrom
  infer_instance

instance [Behind Γ text q start] [Behind Γ text q nodes] :
    Shapes Γ text R q (listFrom? start nodes) := by
  unfold listFrom?
  infer_instance

section Elements

variable {Q : Node → Prop}

lemma elementsUpTo (h : Reads Γ text R q element Q) (n : Nat) (trailing : Bool) :
    Reads Γ text R q (elementsUpTo close element n trailing) fun x => ∀ m ∈ x.1, Q m := by
  induction n generalizing trailing with
  | zero => exact pass fun _ => .done nofun
  | succ n ih =>
    have hone {first : Node} (hfirst : Q first) : Reads Γ text R q
        (pure ([first], false) : Parse (List Node × Bool)) fun x => ∀ m ∈ x.1, Q m :=
      .done (List.forall_mem_singleton.2 hfirst)
    have hrest {first : Node} (hfirst : Q first) (trailing : Bool) : Reads Γ text R q
        (Parse.elementsUpTo close element n trailing >>= fun x => pure (first :: x.1, x.2))
        fun x => ∀ m ∈ x.1, Q m :=
      (ih trailing).andThen fun x hx => .done (List.forall_mem_cons.2 ⟨hfirst, hx⟩)
    refine pass fun closed => ite (fun _ => .done nofun) fun _ => ?_
    refine pass fun before => h.andThen fun first hfirst => pass fun x => ?_
    rcases x with _ | _ | _ | _
    · exact hrest hfirst true
    · exact hone hfirst
    · exact hrest hfirst false
    · exact hone hfirst

lemma commaListOf (h : Reads Γ text R q element Q) :
    Reads Γ text R q (commaList close element) fun l => q ≤ l.pos ∧ ∀ m ∈ l.nodes, Q m := by
  refine bind inferInstance fun start => .use fun hstart => pass fun s => ?_
  refine (elementsUpTo (h.known And.right) _ false).andThen fun x hx => pass fun stop => .done ?_
  exact ⟨hstart, hx⟩

/-- A list of which the elements are what `Q` says. -/
lemma enclosedListOf (h : Reads Γ text R q element Q) :
    Reads Γ text R q (enclosedList opening close element) fun l => q ≤ l.pos ∧ ∀ m ∈ l.nodes, Q m :=
  pass fun _ => (commaListOf h).andThen fun _ hl => pass fun _ => .done hl

end Elements

instance [h : Shapes Γ text R q element] : Shapes Γ text R q (commaList close element) :=
  commaListOf h

instance [h : Shapes Γ text R q element] : Shapes Γ text R q (enclosedList opening close element) :=
  enclosedListOf h

instance {stops : List TokenKind} {element : Parse (Option Node)} [h : Shapes Γ text R q element] :
    Shapes Γ text R q (listUntil stops element) := by
  have hbefore : Shapes Γ text R q (elementBefore stops element) := by
    refine pass fun stopped => ite (fun _ => inferInstance) fun _ => pass fun before => ?_
    refine bind h fun found => pass fun here => pass fun stops => ?_
    exact ite (fun _ => pass fun _ => pass fun _ => inferInstance) fun _ => inferInstance
  have hmany : Shapes Γ text R q (many (elementBefore stops element)) := inferInstance
  exact bind inferInstance fun start => bind (hmany.known And.right) fun found => inferInstance

instance [h : Shapes Γ text R q p] (k : TokenKind) : Shapes Γ text R q (behind k p) :=
  pass fun _ => ite (fun _ => inferInstance) fun _ => inferInstance

instance [h : Shapes Γ text R q element] : Shapes Γ text R q (separated element) := by
  have hrest : Shapes Γ text R q (many (behind .comma element)) := inferInstance
  exact bind h fun first => bind (hrest.known And.right) fun rest => inferInstance

end Lists

end Shapes

/-! ### Nodes -/

/-- The nodes are what is asked of them. -/
class Meets (Γ : Prop) (d : Demand) (ns : List Node) : Prop where
  meets : Γ → ∀ n ∈ ns, d.Met n

/-- The parts are what a node of the kind asks them to be. -/
class Suited (Γ : Prop) (k : NodeKind) (parts : List Part) : Prop where
  suits : Γ → Suits k parts

section Suited

variable {d : Demand} {ns : List Node} {k : NodeKind} {r : Role} {parts : List Part}

instance : Meets Γ .anything ns := ⟨fun _ _ _ => trivial⟩

instance : Meets ((∀ n ∈ ns, d.Met n) ∧ Γ) d ns := ⟨And.left⟩

instance {n : Node} : Meets (d.Met n ∧ Γ) d [n] := ⟨fun hΓ => List.forall_mem_singleton.2 hΓ.1⟩

instance [h : Meets Γ d ns] : Meets (Δ ∧ Γ) d ns := ⟨fun hΓ => h.meets hΓ.2⟩

lemma suits_cons {part : Part} (h : ∀ r, part.role? = some r → ∀ m ∈ part.bare, (demand k r).Met m)
    (h' : Suits k parts) : Suits k (part :: parts) := by
  intro r m hm
  rw [Part.under_cons, List.mem_append] at hm
  rcases hm with hm | hm
  · split at hm
    · exact h r ‹_› m hm
    · cases hm
  · exact h' r m hm

lemma suits_cons_of_role {part : Part} (hr : part.role? = some r)
    (h : ∀ m ∈ part.bare, (demand k r).Met m) (h' : Suits k parts) : Suits k (part :: parts) := by
  refine suits_cons (fun r' hr' => ?_) h'
  obtain rfl := Option.some.inj (hr.symm.trans hr')
  exact h

instance : Suited Γ k [] := ⟨fun _ _ _ => nofun⟩

instance {o : Option Node} [ho : Meets Γ (demand k r) o.toList] [h : Suited Γ k parts] :
    Suited Γ k (.one r o :: parts) :=
  ⟨fun hΓ => suits_cons_of_role rfl (ho.meets hΓ) (h.suits hΓ)⟩

instance {n : Node} [hn : Meets Γ (demand k r) [n]] [h : Suited Γ k parts] :
    Suited Γ k (.one r (some n) :: parts) :=
  ⟨fun hΓ => suits_cons_of_role rfl (hn.meets hΓ) (h.suits hΓ)⟩

instance {l : NodeList} [hl : Meets Γ (demand k r) l.nodes] [h : Suited Γ k parts] :
    Suited Γ k (.many r l :: parts) :=
  ⟨fun hΓ => suits_cons_of_role rfl (hl.meets hΓ) (h.suits hΓ)⟩

instance {o : Option NodeList} [ho : Meets Γ (demand k r) ((o.map (·.nodes)).getD [])]
    [h : Suited Γ k parts] : Suited Γ k (.optional r o :: parts) := by
  refine ⟨fun hΓ => suits_cons_of_role (Part.role?_optional r o) ?_ (h.suits hΓ)⟩
  rw [Part.bare_optional]
  exact ho.meets hΓ

instance {d : Payload} [h : Suited Γ k parts] : Suited Γ k (.data d :: parts) :=
  ⟨fun hΓ => suits_cons (fun _ hr => nomatch hr) (h.suits hΓ)⟩

lemma Suits.append {parts' : List Part} (h : Suits k parts) (h' : Suits k parts') :
    Suits k (parts ++ parts') := by
  intro r m hm
  rw [Part.under_append, List.mem_append] at hm
  exact hm.elim (h r m) (h' r m)

end Suited

namespace Shapes

variable {k : NodeKind} {form : Form} {start stop : Nat} {parts : List Part} {flags : NodeFlags}

lemma not_binder {k : NodeKind} (h : isUsual k = true) : isBinder k = false := by
  unfold isBinder
  split <;> first | rfl | cases h

/-- A node that starts where its parts allow it. -/
lemma node_at (hq : Γ → q ≤ start) [hk : IsTrue (isUsual k)] [hs : Suited Γ k parts]
    [hb : Behind Γ text start parts] : Shapes Γ text R q (node k start stop parts flags) where
  runs hΓ _ hs' hq' := by
    refine ⟨hs', hq', (holds_ofParts (hb.holds hΓ) (hs.suits hΓ) (.ofUsual hk.eq) (fun h => ?_)
      (.ofOther (not_binder hk.eq))).mono (hq hΓ)⟩
    rw [not_declaration hk.eq] at h
    cases h

instance [IsTrue (isUsual k)] [Suited Γ k parts] [Behind Γ text q parts] :
    Shapes Γ text R q (node k q stop parts flags) := node_at fun _ => Nat.le_refl q

/-- A node of any form, told what its parts do not show. -/
lemma finish_whole (hb : Γ → From text start parts) (hs : Γ → Suits (.form form) parts)
    (hl : Lists (.form form) parts)
    (hf : Γ → isDeclaration (.form form) = true → Worded (Part.under .modifier parts) →
      ∀ id stop, ∃ front,
        Fronted text front (Node.ofParts id (.form form) start stop flags parts))
    (hk : isBinder (.form form) = false) :
    Reads Γ text R q (finish form start parts flags) (From text start) where
  runs hΓ s hs' hq := ⟨hs', hq, holds_ofParts (hb hΓ) (hs hΓ) hl
    (fun hd hw => hf hΓ hd hw s.arena.size s.scanner.fullStart) (.ofOther hk)⟩

instance [IsTrue (isUsual (.form form))] [Suited Γ (.form form) parts] [Behind Γ text q parts] :
    Shapes Γ text R q (finish form q parts flags) := .pass fun _ => inferInstance

/-! ### Leaves -/

instance (k : TokenKind) (payload : Payload) : Shapes Γ text R q (leaf (.token k) payload) :=
  .start fun _ => .pass fun _ => .pass fun _ => inferInstance

instance : Shapes Γ text R q tokenNode :=
  .start fun _ => .pass fun _ => .pass fun _ => .pass fun _ => inferInstance

instance : Shapes Γ text R q missing := .start fun _ => inferInstance

instance (k : TokenKind) : Shapes Γ text R q (optionalToken k) := by
  unfold optionalToken
  infer_instance

instance : Shapes Γ text R q literal := by
  unfold literal
  dsimp only
  infer_instance

instance : Shapes Γ text R q word := by unfold word; infer_instance

instance : Shapes Γ text R q privateIdentifier := by unfold privateIdentifier; infer_instance

instance : Shapes Γ text R q identifierName := by unfold identifierName; infer_instance

instance : Shapes Γ text R q identifier := by unfold identifier; infer_instance

end Shapes

/-! ### What a rule makes -/

/-- Whatever it finds in the text, the rule gives what `P` holds of. -/
def Made {α : Type} (R : Runner) (p : Parse α) (P : α → Prop) : Prop := ∀ s : State, P (p.run R s).1

namespace Made

variable {α : Type} {p p' : Parse α} {f : α → Parse β} {P Q : α → Prop} {Q' : β → Prop}

lemma pure {a : α} (h : P a) : Made R (Pure.pure a) P := fun _ => h

lemma mono (h : Made R p P) (hPQ : ∀ a, P a → Q a) : Made R p Q := fun s => hPQ _ (h s)

lemma bind (hp : Made R p P) (hf : ∀ a, P a → Made R (f a) Q') : Made R (p >>= f) Q' :=
  fun s => hf _ (hp s) _

/-- It is the last step that makes it. -/
lemma after (hf : ∀ a, Made R (f a) Q') : Made R (p >>= f) Q' := fun _ => hf _ _

lemma ite {c : Prop} [Decidable c] (h : Made R p P) (h' : Made R p' P) :
    Made R (if c then p else p') P := by
  split
  · exact h
  · exact h'

lemma inContext {add drop : Context} (h : Made R p P) : Made R (withContext add drop p) P :=
  fun _ => h _

lemma finish {form : Form} {start : Nat} {parts : List Part} {flags : NodeFlags} :
    Made R (Parse.finish form start parts flags) (Demand.Met (.form form)) := fun _ => rfl

lemma nothing : Made R (Pure.pure (none : Option α)) fun o => ∀ a ∈ o, P a := pure (by simp)

/-- What a rule makes is given as a value that may be missing. -/
lemma given (h : Made R p P) :
    Made R (p >>= fun a => Pure.pure (Option.some a)) fun o => ∀ a ∈ o, P a :=
  h.bind fun _ ha => pure fun _ hm => Option.some.inj hm ▸ ha

lemma some (h : Made R p P) : Made R (Option.some <$> p) fun o => ∀ a ∈ o, P a :=
  fun s _ ha => Option.some.inj ha ▸ h s

lemma many {p : Parse (Option α)} (h : Made R p fun o => ∀ a ∈ o, P a) :
    Made R (Parse.many p) fun as => ∀ a ∈ as, P a := by
  have upTo (n : Nat) : Made R (manyUpTo p n) fun as => ∀ a ∈ as, P a := by
    induction n with
    | zero => exact after fun _ => pure nofun
    | succ n ih =>
      refine h.bind fun o ho => ?_
      cases o with
      | none => exact pure nofun
      | some a => exact ih.bind fun as has => pure (List.forall_mem_cons.2 ⟨ho a rfl, has⟩)
  exact after fun s => upTo _

lemma iterate {g : α → Parse (Option α)} {a : α} (ha : P a)
    (hg : ∀ a, P a → Made R (g a) fun o => ∀ b ∈ o, P b) : Made R (Parse.iterate g a) P := by
  have upTo (n : Nat) (a : α) (ha : P a) : Made R (iterateUpTo g n a) P := by
    induction n generalizing a with
    | zero => exact after fun _ => pure ha
    | succ n ih =>
      refine (hg a ha).bind fun o ho => ?_
      cases o with
      | none => exact pure ha
      | some b => exact ih b (ho b rfl)
  exact after fun s => upTo _ a ha

section Lists

variable {element : Parse Node} {P : Node → Prop}

lemma separated (h : Made R element P) :
    Made R (Parse.separated element) fun ns => ∀ n ∈ ns, P n := by
  have hnext : Made R (behind .comma element) fun o => ∀ n ∈ o, P n :=
    after fun _ => ite h.given nothing
  refine h.bind fun first hfirst => (many hnext).bind fun rest hrest => ?_
  exact pure (List.forall_mem_cons.2 ⟨hfirst, hrest⟩)

lemma enclosedList {opening close : TokenKind} (h : Made R element P) :
    Made R (Parse.enclosedList opening close element) fun l => ∀ n ∈ l.nodes, P n := by
  have upTo (n : Nat) (trailing : Bool) :
      Made R (elementsUpTo close element n trailing) fun x => ∀ n ∈ x.1, P n := by
    induction n generalizing trailing with
    | zero => exact after fun _ => pure nofun
    | succ n ih =>
      refine after fun closed => ite (pure nofun) (after fun before => ?_)
      refine h.bind fun first hfirst => after fun x => ?_
      have hrest (trailing : Bool) : Made R (elementsUpTo close element n trailing >>= fun x =>
          Pure.pure (first :: x.1, x.2)) fun x => ∀ n ∈ x.1, P n :=
        (ih trailing).bind fun x hx => pure (List.forall_mem_cons.2 ⟨hfirst, hx⟩)
      rcases x with _ | _ | _ | _
      · exact hrest true
      · exact pure (List.forall_mem_singleton.2 hfirst)
      · exact hrest false
      · exact pure (List.forall_mem_singleton.2 hfirst)
  have hlist : Made R (commaList close element) fun l => ∀ n ∈ l.nodes, P n := by
    refine after fun start => after fun s => (upTo _ false).bind fun x hx => ?_
    exact after fun stop => pure hx
  exact after fun _ => hlist.bind fun l hl => after fun _ => pure hl

end Lists

/-! ### Leaves -/

lemma leaf {k : TokenKind} {d : Payload} : Made R (Parse.leaf (.token k) d) (Demand.Met .token) :=
  fun _ => ⟨k, rfl⟩

lemma tokenNode : Made R Parse.tokenNode (Demand.Met .token) := fun _ => ⟨_, rfl⟩

lemma missing : Made R Parse.missing (Demand.Met .token) := fun _ => ⟨_, rfl⟩

lemma literal : Made R Parse.literal (Demand.Met .token) := by
  refine after fun k => after fun s => ?_
  exact ite (after fun _ => after fun v => leaf) (after fun v => leaf)

lemma word : Made R Parse.word (Demand.Met .token) := after fun _ => leaf

lemma identifierName : Made R Parse.identifierName (Demand.Met .token) :=
  after fun _ => ite word (after fun _ => missing)

end Made

/-- A rule with something known of what it makes. -/
lemma Reads.made {p : Parse α} {f : α → Parse β} (hp : Shapes Γ text R q p) (hmade : Made R p P)
    (hf : ∀ a, Reads (P a ∧ From text q a ∧ Γ) text R q (f a) out) :
    Reads Γ text R q (p >>= f) out where
  runs hΓ s hs hq := by
    obtain ⟨hs', hq', ha⟩ := hp.runs hΓ s hs hq
    exact (hf _).runs ⟨hmade s, ha, hΓ⟩ _ hs' hq'

/-! ### Goals -/

/-- Goals are shaped. -/
class ShapesGoals (text : Source) (R : Runner) : Prop where
  reach?_shapes (q : Nat) (g : Goal) : Shapes True text R q (reach? g)

section Goals

variable [h : ShapesGoals text R]

instance (g : Goal) : Shapes Γ text R q (reach? g) := (h.reach?_shapes q g).known fun _ => trivial

instance (g : Goal) : Shapes Γ text R q (reach g) :=
  .ofOption inferInstance inferInstance fun n => inferInstanceAs (Shapes _ text R q (pure n))

end Goals

end EstreeLint.Grammar
