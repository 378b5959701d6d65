import EstreeLint.Proofs.Shapes.Steps

/-!
Precedence: what is asked of a binary expression, and the steps that make none.

Every node of a tree is in the arena, so it is enough to know what a rule adds there. A rule that
`Grows` adds only binary expressions that climb: their operands bind more tightly than their
operator. Nearly all rules do because they make no binary expression themselves. It is the same with
namespaces, which have a namespace as their body only behind a dot.
-/

namespace EstreeLint.Grammar

open Parse

set_option synthInstance.maxSize 20000

variable {α β : Type} {R : Runner} {p : Parse α} {f : α → Parse β}

/-! ### Operators and their operands -/

/-- The operator of a binary expression. -/
def operator? (n : Node) : Option TokenKind :=
  if n.isForm .binaryExpression then (n.part? .operator).bind (·.token?) else none

/-- Neither a comma nor an assignment operator. -/
def isTight (k : TokenKind) : Bool := k != .comma && !k.isAssignment

/-- A comma or an assignment, or another expression that binds less tightly than any operator. -/
def IsLoose (n : Node) : Prop :=
  (∃ k, operator? n = some k ∧ isTight k = false) ∨
    n.kind ∈ [NodeKind.form .conditionalExpression, .form .arrowFunction, .form .yieldExpression]

/-- An operand to the left of the operator. -/
structure LeftOf (k : TokenKind) (n : Node) : Prop where
  tight : ¬ IsLoose n
  le : ∀ k', operator? n = some k' → binaryPrecedence k ≤ binaryPrecedence k'
  power : k = .asteriskAsterisk → n.kind ≠ .form .binaryExpression

/-- An operand to the right of the operator. -/
structure RightOf (k : TokenKind) (n : Node) : Prop where
  tight : ¬ IsLoose n
  lt : k ≠ .asteriskAsterisk → ∀ k', operator? n = some k' →
    binaryPrecedence k < binaryPrecedence k'
  power : k = .asteriskAsterisk → ∀ k', operator? n = some k' →
    binaryPrecedence k ≤ binaryPrecedence k'

/-- The node has two operands, and they bind as its operator wants them to. -/
structure Climbs (k : TokenKind) (n : Node) : Prop where
  precedence : 0 < binaryPrecedence k
  left : ∃ m, n.part? .left = some m ∧ LeftOf k m
  right : ∃ m, n.part? .right = some m ∧ RightOf k m

/-- Kinds of node that hold an expression, a type or a name and are none themselves. -/
@[reducible] def isHolder : NodeKind → Bool
  | .form .computedPropertyName | .form .parenthesizedType | .form .parameter
  | .form .bindingElement => true
  | _ => false

/-- An expression stands before the comma, and what is on the right of it comes later. -/
def Joins (n : Node) : Prop :=
  ∃ m, n.part? .left = some m ∧ isHolder m.kind = false ∧
    ∀ p, n.part? .right = some p → [m, p].Sublist n.children

/-- The name of a namespace is a word. -/
def Named (n : Node) : Prop := ∃ name, n.part? .name = some name ∧ name.kind = .token .identifier

instance : DecidablePred Named := fun n =>
  inferInstanceAs (Decidable (∃ name ∈ n.part? .name, name.kind = .token .identifier))

/-- A namespace behind a dot. -/
structure InnerNamespace (n : Node) : Prop where
  kind : n.kind = .form .moduleDeclaration
  bare : n.partsOf .modifier = []
  plain : n.flags.globalAugmentation = false
  named : Named n

/-- The namespace `m` stands behind a dot after the name of `n`. -/
structure Dotted (n m : Node) : Prop where
  plain : n.flags.globalAugmentation = false
  named : ∃ name, n.part? .name = some name ∧ name.kind = .token .identifier ∧
    [name, m].Sublist n.children
  inner : InnerNamespace m

structure Graded (n : Node) : Prop where
  /-- A binary expression has an operator, and climbs unless that is a comma or an assignment. -/
  climbs : n.kind = .form .binaryExpression →
    ∃ k, operator? n = some k ∧ (isTight k = true → Climbs k n) ∧ (k = .comma → Joins n)
  /-- Only behind a dot a namespace is the body of another one. -/
  dotted : n.kind = .form .moduleDeclaration → ∀ m, n.part? .body = some m →
    m.kind = .form .moduleDeclaration → Dotted n m

section WithRole

variable (n : Node) (r : Role) (k : TokenKind)

@[simp] lemma operator?_withRole : operator? (n.withRole r) = operator? n := by
  simp [operator?, Tree.isForm]

lemma isLoose_withRole : IsLoose (n.withRole r) ↔ IsLoose n := by
  simp [IsLoose]

lemma LeftOf.withRole {n : Node} {k : TokenKind} (h : LeftOf k n) : LeftOf k (n.withRole r) :=
  ⟨mt (isLoose_withRole n r).1 h.tight, by simpa using h.le, by simpa using h.power⟩

lemma RightOf.withRole {n : Node} {k : TokenKind} (h : RightOf k n) : RightOf k (n.withRole r) :=
  ⟨mt (isLoose_withRole n r).1 h.tight, by simpa using h.lt, by simpa using h.power⟩

lemma climbs_withRole : Climbs k (n.withRole r) ↔ Climbs k n := by
  refine ⟨fun h => ?_, fun h => ?_⟩
  · obtain ⟨h₁, h₂, h₃⟩ := h
    simp only [Tree.part?_withRole] at h₂ h₃
    exact ⟨h₁, h₂, h₃⟩
  · obtain ⟨h₁, h₂, h₃⟩ := h
    exact ⟨h₁, by simpa using h₂, by simpa using h₃⟩

lemma InnerNamespace.withRole {n : Node} (h : InnerNamespace n) : InnerNamespace (n.withRole r) :=
  ⟨by simpa using h.kind, by simpa using h.bare, by simpa using h.plain,
    by simpa [Named] using h.named⟩

/-- The part that a node plays itself does not matter. -/
lemma Graded.of_withRole (h : Graded (n.withRole r)) : Graded n where
  climbs := by simpa [Joins, climbs_withRole] using h.climbs
  dotted hk m hm hm' := by
    obtain ⟨hplain, hnamed, hinner⟩ := h.dotted (by simpa using hk) m (by simpa using hm) hm'
    exact ⟨by simpa using hplain, by simpa using hnamed, hinner⟩

end WithRole

/-! ### The arena -/

def AllGraded (arena : Array Node) : Prop := ∀ n ∈ arena, Graded n

/-- The rule adds only graded nodes. -/
class Grows (R : Runner) (p : Parse α) : Prop where
  grows (s : State) : AllGraded s.arena → AllGraded (p.run R s).2.arena

/-- Forms with at most one operator between two operands, and namespaces, are told from all
others. -/
@[reducible] def isOther : NodeKind → Bool
  | .form .binaryExpression | .form .moduleDeclaration => false
  | _ => true

instance {c : Prop} [Decidable c] {f g : Form} [IsTrue (isOther (.form f))]
    [IsTrue (isOther (.form g))] : IsTrue (isOther (.form (if c then f else g))) := by
  split <;> infer_instance

namespace Grows

instance (priority := low) [Peeks p] : Grows R p where
  grows s h := by rwa [Peeks.arena_run]

instance [hp : Grows R p] [hf : ∀ a, Grows R (f a)] : Grows R (p >>= f) where
  grows s h := (hf _).grows _ (hp.grows s h)

lemma bind (_ : Grows R p) (_ : ∀ a, Grows R (f a)) : Grows R (p >>= f) := inferInstance

/-- The last steps of a rule. -/
lemma after [Grows R p] (h : ∀ a, Grows R (f a)) : Grows R (p >>= f) := bind inferInstance h

/-- A step with something known of what it makes. -/
lemma made {P : α → Prop} [hp : Grows R p] (hmade : Made R p P) (hf : ∀ a, P a → Grows R (f a)) :
    Grows R (p >>= f) where
  grows s h := (hf _ (hmade s)).grows _ (hp.grows s h)

instance [hp : Grows R p] (g : α → β) : Grows R (g <$> p) where
  grows s h := hp.grows s h

instance [hp : Grows R p] : Grows R (discard p) where
  grows s h := hp.grows s h

lemma ite {c : Prop} [Decidable c] {p q : Parse α} (hp : Grows R p) (hq : Grows R q) :
    Grows R (if c then p else q) := by
  split
  · exact hp
  · exact hq

instance {c : Prop} [Decidable c] {p q : Parse α} [Grows R p] [Grows R q] :
    Grows R (if c then p else q) := ite inferInstance inferInstance

instance {p q : Parse Bool} [Grows R p] [Grows R q] : Grows R (p <&&> q) where
  grows s h := by
    rw [run_and]
    split
    · exact grows (p := p >>= fun _ => q) s h
    · exact grows s h

instance {p q : Parse Bool} [Grows R p] [Grows R q] : Grows R (p <||> q) where
  grows s h := by
    rw [run_or]
    split
    · exact grows s h
    · exact grows (p := p >>= fun _ => q) s h

instance [hp : Grows R p] (add drop : Context) : Grows R (withContext add drop p) where
  grows s h := hp.grows { s with context := s.context.change add drop } h

instance [hp : Grows R p] : Grows R (deeper p) where
  grows s h := hp.grows { s with depth := s.depth + 1 } h

instance {tooDeep : Parse α} [Grows R tooDeep] [Grows R p] : Grows R (nested tooDeep p) := by
  unfold nested
  infer_instance

instance {p : Parse (Option α)} [hp : Grows R p] : Grows R (attempt p) where
  grows s h := by
    cases hrun : (p.run R s).1 with
    | none =>
      rw [run_attempt_of_none hrun]
      exact h
    | some a =>
      rw [run_attempt_of_some hrun]
      exact hp.grows s h

instance {p : Parse (Option α)} [Grows R p] : Grows R (unlessRuledOut p) where
  grows s h := by
    have htried : AllGraded ((attempt p).run R s).2.arena := grows s h
    unfold unlessRuledOut
    dsimp only
    split
    · exact h
    · split <;> exact htried

/-! ### Tokens -/

instance (g : Scanner → Scanner) [Scanner.Reading g] : Grows R (takeWith g) := ⟨fun _ h => h⟩

instance (g : Scanner → Scanner) [Scanner.Reading g] : Grows R (rescan g) := ⟨fun _ h => h⟩

instance : Grows R next := by unfold next; infer_instance

instance : Grows R nextToken := by unfold nextToken; infer_instance

instance (k : TokenKind) : Grows R (accept k) := by unfold accept; infer_instance

instance (k : TokenKind) : Grows R (expect k) := by unfold expect; infer_instance

instance (k : TokenKind) : Grows R (expect_ k) := by unfold expect_; infer_instance

instance : Grows R semicolon := by unfold semicolon; infer_instance

instance : Grows R giveUp := by unfold giveUp; infer_instance

instance (close : TokenKind) (before : Nat) : Grows R (separation close before) := by
  unfold separation
  dsimp only
  infer_instance

/-! ### Nodes -/

lemma push {kind : NodeKind} {start stop : Nat} {parts : List Part} {flags : NodeFlags}
    (h : ∀ id, Graded (.ofParts id kind start stop flags parts)) :
    Grows R (node kind start stop parts flags) where
  grows s hs n hn := by
    rcases Array.mem_push.1 hn with hn | rfl
    · exact hs n hn
    · exact h _

instance {kind : NodeKind} {start stop : Nat} {parts : List Part} {flags : NodeFlags}
    [h : IsTrue (isOther kind)] : Grows R (node kind start stop parts flags) := by
  have hother := h.eq
  refine push fun id => ⟨fun hk => ?_, fun hk => ?_⟩
  · rw [show kind = .form .binaryExpression from hk] at hother
    cases hother
  · rw [show kind = .form .moduleDeclaration from hk] at hother
    cases hother

instance {form : Form} {start : Nat} {parts : List Part} {flags : NodeFlags}
    [IsTrue (isOther (.form form))] : Grows R (finish form start parts flags) := by
  unfold finish
  infer_instance

instance : Grows R missing := by unfold missing; infer_instance

instance : Grows R tokenNode := by unfold tokenNode; infer_instance

instance {k : TokenKind} {d : Payload} : Grows R (leaf (.token k) d) := by
  unfold leaf
  infer_instance

instance (k : TokenKind) : Grows R (optionalToken k) := by unfold optionalToken; infer_instance

instance : Grows R literal := by unfold literal; infer_instance

instance : Grows R word := by unfold word; infer_instance

instance : Grows R identifier := by unfold identifier; infer_instance

instance : Grows R identifierName := by unfold identifierName; infer_instance

instance : Grows R privateIdentifier := by unfold privateIdentifier; infer_instance

/-! ### Repetition -/

instance {p : Parse (Option α)} [Grows R p] : Grows R (many p) := by
  have upTo (n : Nat) : Grows R (manyUpTo p n) := by
    induction n with
    | zero => exact after fun _ => inferInstance
    | succ n ih =>
      refine after fun o => ?_
      cases o with
      | none => infer_instance
      | some a => exact ih.bind fun as => inferInstance
  exact after fun s => upTo _

/-- A loop over what something is known of. -/
lemma loop {g : α → Parse (Option α)} {a : α} {P : α → Prop} (ha : P a)
    (hmade : ∀ a, P a → Made R (g a) fun o => ∀ b ∈ o, P b) (hg : ∀ a, P a → Grows R (g a)) :
    Grows R (iterate g a) := by
  have upTo (n : Nat) (a : α) (ha : P a) : Grows R (iterateUpTo g n a) := by
    induction n generalizing a with
    | zero => exact after fun _ => inferInstance
    | succ n ih =>
      have hga := hg a ha
      refine made (hmade a ha) fun o ho => ?_
      cases o with
      | none => infer_instance
      | some b => exact ih b (ho b rfl)
  exact after fun s => upTo _ a ha

instance {g : α → Parse (Option α)} {a : α} [hg : ∀ a, Grows R (g a)] : Grows R (iterate g a) :=
  loop (P := fun _ => True) trivial (fun _ _ _ _ _ => trivial) fun a _ => hg a

section Lists

variable {element : Parse Node} {opening close : TokenKind} {start : Nat} {nodes : List Node}

instance [Grows R element] : Grows R (commaList close element) := by
  have upTo (n : Nat) (trailing : Bool) : Grows R (elementsUpTo close element n trailing) := by
    induction n generalizing trailing with
    | zero => exact after fun _ => inferInstance
    | succ n ih =>
      have hrest (first : Node) (trailing : Bool) :
          Grows R (elementsUpTo close element n trailing >>= fun x =>
            pure (first :: x.1, x.2)) := (ih trailing).bind fun _ => inferInstance
      refine after fun closed => ite inferInstance (after fun before => after fun first => ?_)
      refine after fun x => ?_
      rcases x with _ | _ | _ | _
      · exact hrest first true
      · exact inferInstanceAs (Grows R (pure ([first], false)))
      · exact hrest first false
      · exact inferInstanceAs (Grows R (pure ([first], false)))
  exact after fun start => after fun s => (upTo _ false).bind fun x => inferInstance

instance [Grows R element] : Grows R (enclosedList opening close element) := by
  unfold enclosedList
  infer_instance

instance {stops : List TokenKind} {element : Parse (Option Node)} [Grows R element] :
    Grows R (listUntil stops element) := by
  unfold listUntil elementBefore
  dsimp only
  infer_instance

instance [Grows R p] (k : TokenKind) : Grows R (behind k p) := by
  unfold behind
  infer_instance

instance [Grows R element] : Grows R (separated element) := by
  unfold separated
  infer_instance

end Lists

end Grows

/-! ### Goals -/

/-- Goals add only graded nodes, and an assignment is an expression. Behind a dot there is a
namespace. -/
class GrowsGoals (R : Runner) : Prop where
  reach?_grows (g : Goal) : Grows R (reach? g)
  assignment (returnType : Bool) :
    Made R (reach? (.assignment returnType)) fun o => ∀ n ∈ o, isHolder n.kind = false
  inner (namespaceWord : Bool) :
    Made R (reach? (.innerNamespace namespaceWord)) fun o => ∀ n ∈ o, InnerNamespace n

section Goals

variable [GrowsGoals R]

instance (g : Goal) : Grows R (reach? g) := GrowsGoals.reach?_grows g

instance (g : Goal) : Grows R (reach g) := by
  refine Grows.after fun o => ?_
  cases o <;> infer_instance

lemma made_assignment (returnType : Bool) :
    Made R (reach (.assignment returnType)) fun n => isHolder n.kind = false := by
  refine (GrowsGoals.assignment returnType).bind fun o ho => ?_
  cases o with
  | none => exact Made.missing.mono fun n ⟨k, hk⟩ => by rw [hk]
  | some n => exact .pure (ho n rfl)

end Goals

end EstreeLint.Grammar
