import EstreeLint.Proofs.Progress.Steps

/-!
The loops of the grammar.

All of them have one form: a step, and what it gives tells whether there is another round. The
bound on the rounds is never met if each round that is not the last takes a token, or is followed
by the last.
-/

namespace EstreeLint.Grammar

open Parse

/-- A loop over values of `ι`. -/
structure Loop (ι ξ γ : Type) where
  /-- One round. -/
  step : ι → Parse ξ
  /-- Where the next round starts, if what this one has given is followed by one. -/
  again : ι → ξ → Option ι
  /-- What the loop gives after its last round. -/
  last : ι → ξ → γ
  /-- What is put before what the later rounds give. -/
  add : ξ → γ → γ
  /-- What the loop gives where it is cut off. -/
  cut : ι → γ

namespace Loop

variable {ι ξ γ : Type}

/-- At most `n` rounds. -/
def upTo (l : Loop ι ξ γ) : Nat → ι → Parse γ
  | 0, i => do
    giveUp
    return l.cut i
  | n + 1, i => do
    let x ← l.step i
    match l.again i x with
    | some j => l.add x <$> l.upTo n j
    | none => return l.last i x

def run (l : Loop ι ξ γ) (i : ι) : Parse γ := do l.upTo (← current).limit i

/-- Each round of the loop that is not the last takes a token, or leaves the loop where the next
round is the last. -/
def Forward (ρ : Nat) (l : Loop ι ξ γ) : Prop :=
  ∃ rest : ι → Scanner → Prop,
    (∀ i, Starts ρ Anywhere (l.step i) fun x σ => ∀ j ∈ l.again i x, rest j σ) ∧
    ∀ (i : ι) (R : Runner) (s : State), rest i s.scanner → l.again i ((l.step i).run R s).1 = none

/-! ### Loops that go forward -/

variable {text : Source} {R R' : Runner} {s : State} {m ρ : Nat} {l : Loop ι ξ γ}

lemma Alike.map {α β : Type} {p p' : Parse α} (h : Alike text R R' p p' s m) (g : α → β) :
    Alike text R R' (g <$> p) (g <$> p') s m :=
  Alike.bind h ⟨rfl, h.sound, Nat.le_refl _⟩

/-- The last round of a loop. -/
lemma upTo_of_last {n n' : Nat} {i : ι} (hstep : Alike text R R' (l.step i) (l.step i) s m)
    (hlast : l.again i ((l.step i).run R s).1 = none) :
    Alike text R R' (l.upTo (n + 1) i) (l.upTo (n' + 1) i) s m := by
  refine hstep.bind ?_
  rw [hlast]
  exact ⟨rfl, hstep.sound, Nat.le_refl _⟩

/-- **A loop that goes forward is not cut off**: it does not depend on the bound, as long as the
bound is more than what is left of the text. -/
lemma Forward.upTo_alike (h : l.Forward ρ) {n n' : Nat} {i : ι} (hs : Setting text R R' s m ρ)
    (hn : s.left text + 2 ≤ n) (hn' : s.left text + 2 ≤ n') :
    Alike text R R' (l.upTo n i) (l.upTo n' i) s m := by
  obtain ⟨rest, hstep, hrest⟩ := h
  have hround {i : ι} {s : State} (hs : Setting text R R' s m ρ) :=
    hstep i false hs fun _ => trivial
  induction n generalizing n' i s with
  | zero => omega
  | succ n ih =>
    obtain ⟨n', rfl⟩ : ∃ k, n' = k + 1 := ⟨n' - 1, by omega⟩
    obtain ⟨halike, hnext⟩ := hround (i := i) hs
    cases hagain : l.again i ((l.step i).run R s).1 with
    | none => exact upTo_of_last halike hagain
    | some j =>
      refine halike.bind ?_
      rw [hagain]
      refine Alike.map ?_ _
      have ht : Setting text R R' ((l.step i).run R s).2 m ρ :=
        (hs.afterStep halike).mono (le_within ρ _)
      rcases hnext rfl with htakes | hstill
      · have hlt := State.left_lt halike.sound htakes
        exact ih ht (by omega) (by omega)
      · obtain ⟨n, rfl⟩ : ∃ k, n = k + 1 := ⟨n - 1, by omega⟩
        obtain ⟨n', rfl⟩ : ∃ k, n' = k + 1 := ⟨n' - 1, by omega⟩
        exact upTo_of_last (hround ht).1 (hrest _ _ _ (hstill j hagain))

/-- **A loop that goes forward is a rule that goes forward.** -/
theorem Forward.proceeds (h : l.Forward ρ) (i : ι) : Proceeds ρ (l.run i) where
  starts text R R' s m taken hs _ := by
    have hs := hs.mono (le_within ρ taken)
    have hleft : s.left text ≤ Text.bytes text := Nat.sub_le _ _
    have hlimit := hs.limit
    have hlimit' := hs.limit'
    have halike : Alike text R R' (l.upTo s.limit i) (l.upTo m i) s m :=
      h.upTo_alike hs (by omega) (by omega)
    exact ⟨⟨halike.run_eq, halike.sound, halike.le⟩, fun _ => .inr trivial⟩

end Loop

/-! ### The loops -/

section Loops

variable {α β : Type} {ρ : Nat}

/-- Repeats a rule while it gives something. -/
def Loop.many (p : Parse (Option α)) : Loop Unit (Option α) (List α) where
  step _ := p
  again _ o := o.map fun _ => ()
  last _ _ := []
  add o l := o.toList ++ l
  cut _ := []

lemma many_eq (p : Parse (Option α)) : many p = (Loop.many p).run () := by
  have upTo (n : Nat) : manyUpTo p n = (Loop.many p).upTo n () := by
    induction n with
    | zero => rfl
    | succ n ih =>
      refine congrArg (p >>= ·) (funext fun o => ?_)
      cases o with
      | none => rfl
      | some a => exact congrArg (fun q => (a :: ·) <$> q) ih
  exact congrArg (current >>= ·) (funext fun s => upTo s.limit)

/-- Replaces a value while a rule makes something of it. -/
def Loop.iterate (f : α → Parse (Option α)) : Loop α (Option α) α where
  step := f
  again _ o := o
  last a _ := a
  add _ a := a
  cut a := a

lemma iterate_eq (f : α → Parse (Option α)) (a : α) : iterate f a = (Loop.iterate f).run a := by
  have upTo (n : Nat) (a : α) : iterateUpTo f n a = (Loop.iterate f).upTo n a := by
    induction n generalizing a with
    | zero => rfl
    | succ n ih =>
      refine congrArg (f a >>= ·) (funext fun o => ?_)
      cases o with
      | none => rfl
      | some b => exact ih b
  exact congrArg (current >>= ·) (funext fun s => upTo s.limit a)

/-- An element of a list with commas and what follows it, unless the list has come to its end. -/
def elementStep (close : TokenKind) (element : Parse Node) :
    Parse (Option (Node × Separation)) := do
  if ← atAny [close, .endOfFile] then return none
  let before ← tokenStart
  let first ← element
  return some (first, ← separation close before)

/-- The elements of a list with commas, up to the token that closes it. -/
def Loop.elements (close : TokenKind) (element : Parse Node) :
    Loop Bool (Option (Node × Separation)) (List Node × Bool) where
  step _ := elementStep close element
  again _
    | some (_, .comma) => some true
    | some (_, .broken false) => some false
    | _ => none
  last trailing
    | some (first, _) => ([first], false)
    | none => ([], trailing)
  add
    | some (first, _) => fun x => (first :: x.1, x.2)
    | none => id
  cut trailing := ([], trailing)

lemma elementsUpTo_eq (close : TokenKind) (element : Parse Node) (n : Nat) (trailing : Bool) :
    elementsUpTo close element n trailing = (Loop.elements close element).upTo n trailing := by
  induction n generalizing trailing with
  | zero => rfl
  | succ n ih =>
    change _ = (elementStep close element >>= fun x => _)
    rw [elementStep, bind_assoc]
    refine congrArg (_ >>= ·) (funext fun b => ?_)
    cases b with
    | true => rfl
    | false =>
      simp only [Bool.false_eq_true, if_false, bind_assoc, pure_bind]
      refine congrArg (_ >>= ·) (funext fun before => congrArg (_ >>= ·) (funext fun first =>
        congrArg (_ >>= ·) (funext fun x => ?_)))
      cases x with
      | comma => exact congrArg (fun q => (fun x => (first :: x.1, x.2)) <$> q) (ih true)
      | closed => rfl
      | broken giveUp =>
        cases giveUp with
        | true => rfl
        | false => exact congrArg (fun q => (fun x => (first :: x.1, x.2)) <$> q) (ih false)

/-! ### Loops that go forward -/

section Forward

lemma forward_many {p : Parse (Option α)} (h : Starts ρ Anywhere p fun o _ => o = none) :
    (Loop.many p).Forward ρ :=
  ⟨fun _ _ => False, fun _ => h.mono (fun _ h => h) fun o _ ho => by simp [Loop.many, ho],
    fun _ _ _ h => h.elim⟩

lemma forward_iterate {f : α → Parse (Option α)}
    (h : ∀ a, Starts ρ Anywhere (f a) fun o _ => o = none) : (Loop.iterate f).Forward ρ :=
  ⟨fun _ _ => False, fun a => (h a).mono (fun _ h => h) fun o _ ho => by simp [Loop.iterate, ho],
    fun _ _ _ h => h.elim⟩

/-- A comma is taken, or the list ends here, or a token is dropped that no element has taken. -/
lemma separation_starts (close : TokenKind) (before : Nat) :
    Starts ρ (fun σ => σ.tokenStart = before ∧ σ.kind ≠ .endOfFile) (separation close before)
      fun x _ => x = .closed := by
  refine .acceptIf (.isAt .pure (.stand before fun _ => .tokenStart fun n => ?_))
  refine .iteOf (fun _ => .take .opened) fun h => .rest ?_
  rintro σ ⟨⟨hb, -⟩, hn⟩
  exact h (by simp [← hb, hn])

/-- Between two elements a comma is taken. Where it is missing and the element has taken nothing,
the token at hand is dropped. -/
lemma forward_elements (close : TokenKind) (element : Parse Node) [Proceeds ρ element] :
    (Loop.elements close element).Forward ρ := by
  refine ⟨fun _ _ => False, fun trailing => ?_, fun _ _ _ h => h.elim⟩
  refine .atAny (.pure (by simp [Loop.elements])) (.tokenStart fun before => ?_)
  refine .stand before fun first => .bind (separation_starts close before) fun x => .pure ?_
  rintro _ rfl
  simp [Loop.elements]

/-- An element is read up to where it stops. Where it takes nothing, the token at hand is dropped,
unless it has turned out to be one of the tokens that the list runs up to. -/
lemma forward_elementBefore (stops : List TokenKind) (element : Parse (Option Node))
    [Proceeds ρ element] : (Loop.many (elementBefore stops element)).Forward ρ := by
  refine ⟨fun _ σ => σ.kind ∈ stops, fun _ => ?_, fun _ R s h => ?_⟩
  · refine .atAny (.pure (by simp [Loop.many])) (.tokenStart fun before => ?_)
    refine .stand before fun found => .tokenStart fun n =>
      .reading (fun σ => stops.contains σ.kind) fun b => ?_
    exact .iteOf (fun _ => .look fun _ => .take .opened) fun h => .pure (by simp_all)
  · have hat : (atAny (.endOfFile :: stops)).run R s = (true, s) :=
      Prod.ext (List.contains_iff_mem.2 (List.mem_cons_of_mem _ h)) rfl
    have hrun : (elementBefore stops element).run R s = (none, s) := by
      rw [elementBefore, run_bind, hat]
      rfl
    exact congrArg (fun x => x.1.map fun _ => ()) hrun

end Forward

/-! ### Lists -/

section Lists

variable {p : Parse (Option α)} {f : α → Parse (Option α)} {element : Parse Node}

lemma Proceeds.many (h : Starts ρ Anywhere p fun o _ => o = none) : Proceeds ρ (many p) :=
  many_eq p ▸ (forward_many h).proceeds ()

lemma Proceeds.iterate (h : ∀ a, Starts ρ Anywhere (f a) fun o _ => o = none) (a : α) :
    Proceeds ρ (iterate f a) := iterate_eq f a ▸ (forward_iterate h).proceeds a

instance (close : TokenKind) [Proceeds ρ element] : Proceeds ρ (commaList close element) := by
  have hlist : commaList close element = (do
      let start ← pos
      let x ← (Loop.elements close element).run false
      return ⟨x.1, { pos := start, stop := ← pos, trailingComma := x.2 }⟩) := by
    simp only [commaList, Loop.run, bind_assoc, elementsUpTo_eq]
  have := (forward_elements close element (ρ := ρ)).proceeds false
  rw [hlist]
  infer_instance

instance (opening close : TokenKind) [Proceeds ρ element] :
    Proceeds ρ (enclosedList opening close element) := by
  unfold enclosedList
  infer_instance

instance (opening close : TokenKind) [Proceeds 4 element] :
    Opened (Begins opening) (enclosedList opening close element) := by
  unfold enclosedList
  infer_instance

instance (stops : List TokenKind) {element : Parse (Option Node)} [Proceeds ρ element] :
    Proceeds ρ (listUntil stops element) := by
  have : Proceeds ρ (Parse.many (elementBefore stops element)) :=
    many_eq (elementBefore stops element) ▸ (forward_elementBefore stops element).proceeds ()
  unfold listUntil
  infer_instance

lemma behind_starts {K : Scanner → Prop} (k : TokenKind) (p : Parse α) [Proceeds 4 p]
    (hk : k ≠ .endOfFile := by decide) : Starts ρ K (behind k p) fun o _ => o = none :=
  .acceptIf .pure hk

instance [Proceeds 4 element] : Proceeds 4 (separated element) := by
  have := Proceeds.many (behind_starts (ρ := 4) .comma element)
  unfold separated
  infer_instance

end Lists

end Loops

/-! ### Goals -/

/-- The goal may be reached where goals of rank below `ρ` may. -/
class Goal.Below (ρ : Nat) (g : Goal) : Prop where
  lt : g.rank < ρ

section Goals

variable {α β : Type} {ρ : Nat} {g : Goal}

instance (b : Bool) : Goal.Below (ρ + 1) (.element b) := ⟨Nat.succ_pos _⟩

instance : Goal.Below (ρ + 1) .leftHandSide := ⟨Nat.succ_pos _⟩

instance : Goal.Below (ρ + 1) .primary := ⟨Nat.succ_pos _⟩

instance : Goal.Below (ρ + 1) .type := ⟨Nat.succ_pos _⟩

instance : Goal.Below (ρ + 1) .typeOperator := ⟨Nat.succ_pos _⟩

instance : Goal.Below (ρ + 1) .binding := ⟨Nat.succ_pos _⟩

instance (b : Bool) : Goal.Below (ρ + 2) (.assignment b) := ⟨Nat.lt_add_left ρ (by decide : 1 < 2)⟩

instance (n : Nat) : Goal.Below (ρ + 2) (.binary n) := ⟨Nat.lt_add_left ρ (by decide : 1 < 2)⟩

instance : Goal.Below (ρ + 2) .simpleUnary := ⟨Nat.lt_add_left ρ (by decide : 1 < 2)⟩

instance : Goal.Below (ρ + 3) .statement := ⟨Nat.lt_add_left ρ (by decide : 2 < 3)⟩

instance (b : Bool) : Goal.Below (ρ + 4) (.innerNamespace b) :=
  ⟨Nat.lt_add_left ρ (by decide : 3 < 4)⟩

/-- A goal goes forward, and takes the token that it begins with. -/
lemma reach?_starts [h : g.Below ρ] :
    Starts ρ (fun σ => σ.kind ∈ g.opener?) (reach? g) fun _ _ => False := by
  intro text _ _ s _ taken hs hk
  have hlt : weight text g s < 4 * s.left text + within ρ taken :=
    Nat.add_lt_add_left (Nat.lt_of_lt_of_le h.lt (le_within ρ taken)) _
  obtain ⟨halike, htakes⟩ := hs.agree.goals hs.sound hs.limit hs.limit' hlt
  exact ⟨halike, fun ht => .inl (htakes (hk ht))⟩

instance [h : g.Below ρ] : Proceeds ρ (reach? g) where
  starts text _ _ s _ taken hs _ := by
    have hlt : weight text g s < 4 * s.left text + within ρ taken :=
      Nat.add_lt_add_left (Nat.lt_of_lt_of_le h.lt (le_within ρ taken)) _
    exact ⟨(hs.agree.goals hs.sound hs.limit hs.limit' hlt).1, fun _ => .inr trivial⟩

instance [g.Below ρ] : Proceeds ρ (reach g) where
  starts := .sub fun o => by
    cases o with
    | some n => exact .pure
    | none => exact .named

lemma reach_starts [g.Below ρ] :
    Starts ρ (fun σ => σ.kind ∈ g.opener?) (reach g) fun _ _ => False :=
  .takeThen reach?_starts fun o => by
    cases o with
    | some n => exact .pure
    | none => exact .named

end Goals

end EstreeLint.Grammar
