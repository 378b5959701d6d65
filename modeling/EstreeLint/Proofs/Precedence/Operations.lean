import EstreeLint.Grammar.Operation
import EstreeLint.Proofs.Precedence.Expressions

/-!
Operators between operands climb.

A loop takes the operators that bind more tightly than a bound, and each of them reads its right
operand by the same loop with the operator as the bound. So where a loop has stopped, the operator
at hand is not one that the bound lets through: it is `Settled`. When the loop around it takes that
operator, what has been read binds at least as tightly.
-/

namespace EstreeLint.Grammar

open Parse

set_option synthInstance.maxSize 20000

variable {R : Runner} {above start : Nat} {s : State} {left : Node} {k k' : TokenKind}

/-! ### Precedences -/

lemma binaryPrecedence_le (k : TokenKind) : binaryPrecedence k ≤ 15 := by
  cases k <;> decide

lemma isTight_of_precedence (h : 0 < binaryPrecedence k) : isTight k = true := by
  revert h
  cases k <;> decide

lemma takesOperator_iff : takesOperator above k = true ↔
    0 < binaryPrecedence k ∧
      if k = .asteriskAsterisk then above ≤ binaryPrecedence k else above < binaryPrecedence k := by
  unfold takesOperator
  by_cases hk : k = .asteriskAsterisk <;> simp [hk, Nat.pos_iff_ne_zero]

/-- Nothing that binds more tightly is left where an operator is not taken. -/
lemma precedence_le_of_not_taken (h : takesOperator (binaryPrecedence k') k = false)
    (hk : 0 < binaryPrecedence k) :
    k ≠ .asteriskAsterisk ∧ binaryPrecedence k ≤ binaryPrecedence k' := by
  have hnot := mt takesOperator_iff.2 (Bool.eq_false_iff.1 h)
  by_cases hpower : k = .asteriskAsterisk
  · subst hpower
    exact absurd ⟨hk, binaryPrecedence_le k'⟩ hnot
  · simp only [hpower, if_false, not_and, Nat.not_lt] at hnot
    exact ⟨hpower, hnot hk⟩

lemma rescanGreater_of_ne {σ : Scanner} (h : σ.kind ≠ .greaterThan) : σ.rescanGreater = σ :=
  if_neg (by simpa using h)

/-- A token that is read again a second time stays as it is. -/
lemma rescanGreater_rescanGreater (σ : Scanner) :
    σ.rescanGreater.rescanGreater = σ.rescanGreater := by
  by_cases hk : σ.rescanGreater.kind = .greaterThan
  · have hsame : σ.rescanGreater = σ := by
      unfold Scanner.rescanGreater at hk ⊢
      split
      · next h =>
        rw [if_pos h] at hk
        dsimp only at hk ⊢
        have hlength : (Punctuation.greaterRest σ.cursor.rest).2 = 0 := by
          revert hk
          unfold Punctuation.greaterRest
          split <;> (try split) <;> simp
        rw [hk, hlength]
        obtain ⟨_, _, _, _, _, _, kind, _, _⟩ := σ
        obtain rfl : kind = .greaterThan := by simpa using h
        simp [Cursor.advance]
      · rfl
    rw [hsame, hsame]
  · exact rescanGreater_of_ne hk

/-! ### Where a loop stops -/

/-- The state with the operator at hand read as one token. -/
def State.atOperator (s : State) : State := { s with scanner := s.scanner.rescanGreater }

/-- An operator that is not taken whatever its precedence is. -/
def Withheld (s : State) : Prop :=
  s.scanner.kind = .inKw ∧ s.context.noIn = true ∨
    (s.scanner.kind = .asKw ∨ s.scanner.kind = .satisfiesKw) ∧
      s.scanner.flags.precedingLineBreak = true

/-- The operator at hand is not taken behind operands that bind more tightly than `above`. -/
def Settled (above : Nat) (s : State) : Prop :=
  takesOperator above s.atOperator.scanner.kind = false ∨ Withheld s.atOperator

lemma Settled.of_same {t : State} (h : Settled above s) (hscanner : t.scanner = s.scanner)
    (hcontext : t.context = s.context) : Settled above t := by
  unfold Settled Withheld State.atOperator at *
  rw [hscanner, hcontext]
  exact h

lemma settled_atOperator (h : Settled above s) : Settled above s.atOperator := by
  unfold Settled Withheld State.atOperator at *
  rw [rescanGreater_rescanGreater]
  exact h

/-- Where the parse has given up, no operator is at hand. -/
lemma settled_giveUp : Settled above (giveUp.run R s).2 := by
  have hkinds : ∀ k ∈ [TokenKind.jsxText, .jsxTextAllWhiteSpaces, .endOfFile],
      k ≠ .greaterThan ∧ binaryPrecedence k = 0 := by decide
  obtain ⟨hgreater, hzero⟩ := hkinds _ s.scanner.kind_halt
  refine .inl ?_
  unfold State.atOperator
  rw [scanner_giveUp, rescanGreater_of_ne hgreater, takesOperator, hzero]
  rfl

/-! ### One operator -/

/-- The operator at hand is taken. -/
structure Taking (above : Nat) (s : State) : Prop where
  takes : takesOperator above s.scanner.kind = true
  not_withheld : ¬ Withheld s

/-- A type behind `as` or `satisfies`. -/
def typedOperand (operator : TokenKind) (start : Nat) (left : Node) : Parse (Option Node) := do
  next
  let type ← reach .type
  let form := if operator == .asKw then Form.asExpression else .satisfiesExpression
  return some (← finish form start [.one .expression left, .one .type type])

/-- The right operand of an operator. -/
def rightOperand (operator : TokenKind) (start : Nat) (left : Node) : Parse (Option Node) := do
  let mark ← tokenNode
  let right ← reach (.binary (binaryPrecedence operator))
  return some (← finish .binaryExpression start
    [.one .left left, .one .operator mark, .one .right right])

/-- **What a round of the loop does**: it stops at an operator, or takes it with what follows. -/
lemma operatorLink_cases (R : Runner) (above start : Nat) (left : Node) (s : State) :
    (operatorLink above start left).run R s = (none, s.atOperator) ∧ Settled above s ∨
    Taking above s.atOperator ∧ (operatorLink above start left).run R s =
      (if s.atOperator.scanner.kind = .asKw ∨ s.atOperator.scanner.kind = .satisfiesKw then
        typedOperand s.atOperator.scanner.kind start left
      else rightOperand s.atOperator.scanner.kind start left).run R s.atOperator := by
  have hread : (rescan Scanner.rescanGreater).run R s = (s.atOperator.scanner.kind, s.atOperator) :=
    rfl
  unfold Settled operatorLink
  rw [run_bind, hread]
  generalize s.atOperator = t
  have hcontext : (inContext (·.noIn)).run R t = (t.context.noIn, t) := rfl
  have hline : afterLineBreak.run R t = (t.scanner.flags.precedingLineBreak, t) := rfl
  dsimp only
  split
  · next h => exact .inl ⟨rfl, .inl (by simpa using h)⟩
  next htakes =>
  rw [run_bind, hcontext]
  dsimp only
  split
  · next h => exact .inl ⟨rfl, .inr (.inl (by simpa using h))⟩
  next hin =>
  have htakes : takesOperator above t.scanner.kind = true := by simpa using htakes
  have hin : ¬ (t.scanner.kind = .inKw ∧ t.context.noIn = true) := by simpa using hin
  split
  · next hword =>
    have hword : t.scanner.kind = .asKw ∨ t.scanner.kind = .satisfiesKw := by simpa using hword
    rw [run_bind, hline, if_pos hword]
    dsimp only
    split
    · next hbreak => exact .inl ⟨rfl, .inr (.inr ⟨hword, hbreak⟩)⟩
    · next hbreak => exact .inr ⟨⟨htakes, fun h => h.elim hin fun h => hbreak h.2⟩, rfl⟩
  · next hword =>
    have hword : ¬ (t.scanner.kind = .asKw ∨ t.scanner.kind = .satisfiesKw) := by simpa using hword
    rw [if_neg hword]
    exact .inr ⟨⟨htakes, fun h => h.elim hin fun h => hword h.1⟩, rfl⟩

/-! ### What a loop gives -/

/-- A node that may stand behind an operator with the precedence `above`. -/
structure Within (above : Nat) (n : Node) : Prop where
  tight : ¬ IsLoose n
  taken : ∀ k, operator? n = some k → takesOperator above k = true

variable {n : Node}

lemma kind_of_operator? (h : operator? n = some k) : n.kind = .form .binaryExpression := by
  unfold operator? at h
  split at h
  · next hform => simpa [Tree.isForm] using hform
  · cases h

lemma not_loose_of_operator? (h : operator? n = some k) (ht : isTight k = true) : ¬ IsLoose n := by
  rintro (⟨k', hk', hloose⟩ | hkind)
  · obtain rfl := Option.some.inj (h.symm.trans hk')
    rw [ht] at hloose
    cases hloose
  · rw [kind_of_operator? h] at hkind
    revert hkind
    decide

lemma Operand.within (h : Operand n) : Within above n where
  tight := h.not_loose
  taken k hk := by
    rw [h.operator?] at hk
    cases hk

lemma Operand.leftOf (h : Operand n) : LeftOf k n where
  tight := h.not_loose
  le k' hk' := by
    rw [h.operator?] at hk'
    cases hk'
  power _ := h.not_binary

lemma precedence_lt_of_ne (h : k ≠ .asteriskAsterisk) : binaryPrecedence k < 15 := by
  revert h
  cases k <;> decide

/-- What a loop gives may stand behind the operator that has bounded it. -/
lemma Within.rightOf (h : Within (binaryPrecedence k) n) : RightOf k n where
  tight := h.tight
  lt hk k' hk' := by
    have htaken := (takesOperator_iff.1 (h.taken k' hk')).2
    by_cases hpower : k' = .asteriskAsterisk
    · rw [hpower]
      exact precedence_lt_of_ne hk
    · rwa [if_neg hpower] at htaken
  power hk k' hk' := by
    have htaken := (takesOperator_iff.1 (h.taken k' hk')).2
    split at htaken
    · exact htaken
    · exact Nat.le_of_lt htaken

/-- What has been read so far in a loop: an operand, or an operation behind which only operators
are left that do not bind more tightly. -/
def Ready (above : Nat) (n : Node) (s : State) : Prop :=
  Operand n ∨ ∃ k, operator? n = some k ∧ takesOperator above k = true ∧
    Settled (binaryPrecedence k) s

lemma Ready.within (h : Ready above n s) : Within above n := by
  obtain h | ⟨k, hk, htakes, -⟩ := h
  · exact h.within
  · refine ⟨not_loose_of_operator? hk (isTight_of_precedence (takesOperator_iff.1 htakes).1), ?_⟩
    intro k' hk'
    obtain rfl := Option.some.inj (hk.symm.trans hk')
    exact htakes

/-- **What has been read may stand before the operator that is taken next.** -/
lemma Ready.leftOf (h : Ready above n s) (ht : Taking above s.atOperator) :
    LeftOf s.atOperator.scanner.kind n := by
  obtain h | ⟨k, hk, htakes, hsettled⟩ := h
  · exact h.leftOf
  · have hprec := (takesOperator_iff.1 ht.takes).1
    obtain ⟨hpower, hle⟩ :=
      precedence_le_of_not_taken (hsettled.resolve_right ht.not_withheld) hprec
    refine ⟨not_loose_of_operator? hk (isTight_of_precedence (takesOperator_iff.1 htakes).1), ?_,
      fun h => absurd h hpower⟩
    intro k' hk'
    obtain rfl := Option.some.inj (hk.symm.trans hk')
    exact hle

/-! ### Goals -/

/-- Goals add only graded nodes, and their operations are what their names promise. -/
class ClimbsGoals (R : Runner) : Prop extends GrowsGoals R where
  element (inExpression : Bool) :
    Made R (reach? (.element inExpression)) fun o => ∀ n ∈ o, Operand n
  binary (above : Nat) (s : State) (hs : AllGraded s.arena) :
    (∀ n, (R.run (.binary above) s).1 = some n → Within above n) ∧
      Settled above (R.run (.binary above) s).2

variable [ClimbsGoals R]

omit [ClimbsGoals R] in
lemma made_reach {g : Goal} (h : Made R (reach? g) fun o => ∀ n ∈ o, Operand n) :
    Made R (reach g) Operand := by
  refine h.bind fun o ho => ?_
  cases o with
  | none => exact Made.missing.ofToken
  | some n => exact .pure (ho n rfl)

lemma run_reach_binary (above : Nat) (hs : AllGraded s.arena) :
    Within above ((reach (.binary above)).run R s).1 ∧
      Settled above ((reach (.binary above)).run R s).2 := by
  obtain ⟨hwithin, hsettled⟩ := ClimbsGoals.binary (R := R) above s hs
  have hrun : (reach? (.binary above)).run R s = R.run (.binary above) s := rfl
  unfold reach
  rw [run_bind, hrun]
  cases hnode : (R.run (.binary above) s).1 with
  | none =>
    have hmissing : Operand (missing.run R (R.run (.binary above) s).2).1 :=
      Made.missing.ofToken _
    exact ⟨hmissing.within, hsettled.of_same rfl rfl⟩
  | some n => exact ⟨hwithin n hnode, hsettled⟩

/-! ### Rounds -/

lemma typedOperand_run (operator : TokenKind) (start : Nat) (left : Node) (s : State) :
    (∃ n, ((typedOperand operator start left).run R s).1 = some n ∧ Operand n) ∧
      (AllGraded s.arena → AllGraded ((typedOperand operator start left).run R s).2.arena) := by
  have hgrows : Grows R (typedOperand operator start left) := by
    unfold typedOperand
    dsimp only
    infer_instance
  refine ⟨⟨_, rfl, ?_⟩, hgrows.grows s⟩
  change isOperand (.form (if _ then _ else _)) = true
  split <;> rfl

lemma rightOperand_run (ht : Taking above s) (hleft : LeftOf s.scanner.kind left)
    (hs : AllGraded s.arena) :
    ∃ n, ((rightOperand s.scanner.kind start left).run R s).1 = some n ∧
      operator? n = some s.scanner.kind ∧
      Settled (binaryPrecedence s.scanner.kind)
        ((rightOperand s.scanner.kind start left).run R s).2 ∧
      AllGraded ((rightOperand s.scanner.kind start left).run R s).2.arena := by
  have hk : (tokenNode.run R s).1.kind = .token s.scanner.kind := rfl
  have hmarked : AllGraded (tokenNode.run R s).2.arena := Grows.grows s hs
  unfold rightOperand
  rw [run_bind]
  generalize tokenNode.run R s = x at hk hmarked
  rw [run_bind]
  obtain ⟨hwithin, hsettled⟩ :=
    run_reach_binary (R := R) (binaryPrecedence s.scanner.kind) hmarked
  have hright : AllGraded ((reach (.binary (binaryPrecedence s.scanner.kind))).run R x.2).2.arena :=
    Grows.grows x.2 hmarked
  generalize (reach (.binary (binaryPrecedence s.scanner.kind))).run R x.2 = y
    at hwithin hsettled hright
  refine ⟨_, rfl, operator?_ofParts hk, hsettled.of_same rfl rfl, ?_⟩
  have hfinish : Grows R (finish .binaryExpression start
      [.one .left left, .one .operator x.1, .one .right y.1]) :=
    .after fun stop => .push fun id => graded_ofParts hk
      (fun _ => ⟨(takesOperator_iff.1 ht.takes).1, hleft, hwithin.rightOf⟩)
      fun hcomma => absurd (takesOperator_iff.1 ht.takes).1 (by rw [hcomma]; decide)
  exact hfinish.grows y.2 hright

/-! ### The loop -/

/-- **The loop climbs**: it adds graded nodes, gives one that may stand behind its bound, and stops
where the operator at hand is not taken. -/
lemma operators_climb (n : Nat) (hs : AllGraded s.arena) (hleft : Ready above left s) :
    let x := (iterateUpTo (operatorLink above start) n left).run R s
    AllGraded x.2.arena ∧ Within above x.1 ∧ Settled above x.2 := by
  induction n generalizing left s with
  | zero => exact ⟨(inferInstance : Grows R giveUp).grows s hs, hleft.within, settled_giveUp⟩
  | succ n ih =>
    dsimp only
    rw [iterateUpTo, run_bind]
    obtain ⟨hrun, hsettled⟩ | ⟨ht, hrun⟩ := operatorLink_cases R above start left s
    · rw [hrun]
      exact ⟨hs, hleft.within, settled_atOperator hsettled⟩
    · by_cases hword : s.atOperator.scanner.kind = .asKw ∨ s.atOperator.scanner.kind = .satisfiesKw
      · obtain ⟨⟨m, hm, hoperand⟩, hgrows⟩ := typedOperand_run (R := R) s.atOperator.scanner.kind
          start left s.atOperator
        rw [if_pos hword] at hrun
        rw [hrun, hm]
        exact ih (hgrows hs) (.inl hoperand)
      · obtain ⟨m, hm, hoperator, hsettled, harena⟩ :=
          rightOperand_run (R := R) ht (hleft.leftOf ht) hs
        rw [if_neg hword] at hrun
        rw [hrun, hm]
        exact ih harena (.inr ⟨_, hoperator, ht.takes, hsettled⟩)

/-! ### Unary operators -/

instance (form : Form) (parts : List Part) (r : Role) [IsTrue (isOther (.form form))] :
    Grows R (applied form parts r) := by
  unfold applied
  infer_instance

instance : Grows R typeAssertion := by unfold typeAssertion; infer_instance

omit [ClimbsGoals R] in
instance : Grows R operandFollowsOnLine := by unfold operandFollowsOnLine; infer_instance

omit [ClimbsGoals R] in
instance : Grows R atAwait := by unfold atAwait; infer_instance

omit [ClimbsGoals R] in
instance : Grows R atYield := by unfold atYield; infer_instance

omit [ClimbsGoals R] in
instance : Grows R atElement := by unfold atElement; infer_instance

instance : Grows R updateExpression := by
  unfold updateExpression
  infer_instance

instance : Grows R simpleUnary := by
  refine .after fun k => ?_
  split <;> infer_instance

lemma made_updateExpression : Made R updateExpression Operand := by
  have helement : Made R (reach (.element true)) Operand := made_reach (ClimbsGoals.element true)
  unfold updateExpression
  refine .after fun _ => .after fun k => .ite (.after fun _ => .after fun _ => .operand) ?_
  refine .after fun _ => .ite helement (made_leftHandSide.bind fun e he => .after fun _ => ?_)
  exact .ite (.after fun _ => .after fun _ => .operand) (.pure he)

lemma made_simpleUnary : Made R simpleUnary Operand := by
  have happlied {form : Form} {parts : List Part} {r : Role} [IsTrue (isOperand (.form form))] :
      Made R (applied form parts r) Operand :=
    .after fun _ => .after fun _ => .after fun _ => .operand
  have htyped : Made R typeAssertion Operand :=
    .after fun _ => .after fun _ => .after fun _ => .after fun _ => .after fun _ => .operand
  refine .after fun k => ?_
  split
  iterate 7 exact happlied
  · exact .after fun _ => .ite made_updateExpression htyped
  · exact .after fun _ => .ite happlied made_updateExpression
  · exact made_updateExpression

/-- **The rule for operations climbs.** -/
theorem binary_climbs (above : Nat) (hs : AllGraded s.arena) :
    let x := (binary above).run R s
    AllGraded x.2.arena ∧ Within above x.1 ∧ Settled above x.2 := by
  have hrun : (binary above).run R s =
      (iterateUpTo (operatorLink above s.scanner.fullStart)
        (simpleUnary.run R s).2.limit (simpleUnary.run R s).1).run R (simpleUnary.run R s).2 := rfl
  dsimp only
  rw [hrun]
  exact operators_climb _ ((inferInstance : Grows R simpleUnary).grows s hs)
    (.inl (made_simpleUnary (R := R) s))

instance (above : Nat) : Grows R (binary above) := ⟨fun _ hs => (binary_climbs above hs).1⟩

/-! ### Arrow functions and assignments -/

section Arrows

variable (start : Nat) (returnType : Bool)

instance (async : Bool) : Grows R (arrowBody async returnType) := by
  unfold arrowBody
  dsimp only
  infer_instance

instance (name : Node) (mods : Option NodeList) :
    Grows R (simpleArrow start name mods returnType) := by
  unfold simpleArrow
  infer_instance

instance (sure : Bool) : Grows R (parenthesizedArrow sure returnType) := by
  unfold parenthesizedArrow
  dsimp only
  refine .after fun _ => .after fun _ => .after fun _ => .after fun x => ?_
  obtain ⟨typeParams, params⟩ := x
  cases params <;> infer_instance

omit [ClimbsGoals R] in
instance : Grows R arrowGuess := by unfold arrowGuess; infer_instance

instance : Grows R (parenthesizedArrow? returnType) := by
  refine .after fun guess => ?_
  cases guess <;> infer_instance

omit [ClimbsGoals R] in
instance : Grows R atAsyncArrow := by unfold atAsyncArrow; infer_instance

instance : Grows R (asyncArrow? returnType) := by unfold asyncArrow?; infer_instance

instance : Grows R yieldExpression := by unfold yieldExpression; infer_instance

instance (condition : Node) : Grows R (conditionalRest start condition returnType) := by
  unfold conditionalRest
  infer_instance

/-- The operator of an assignment is read as one token, and the node for it tells which. -/
lemma assignmentOperator_grows (left : Node) {other : Parse Node} [Grows R other] : Grows R (do
    if (← rescan Scanner.rescanGreater).isAssignment then
      let operator ← tokenNode
      let right ← reach (.assignment returnType)
      return ← finish .binaryExpression start
        [.one .left left, .one .operator operator, .one .right right]
    other) where
  grows s hs := by
    have hread : (rescan Scanner.rescanGreater).run R s =
      (s.atOperator.scanner.kind, s.atOperator) := rfl
    rw [run_bind, hread]
    dsimp only
    split
    · next hassigns =>
      have hmark : (tokenNode.run R s.atOperator).1.kind = .token s.atOperator.scanner.kind := rfl
      have hjoined : Grows R (do
          let right ← reach (.assignment returnType)
          finish .binaryExpression start
            [.one .left left, .one .operator (tokenNode.run R s.atOperator).1,
              .one .right right]) := .loose hmark (by simp [isTight, hassigns]) fun hcomma => by
        rw [hcomma] at hassigns
        cases hassigns
      exact hjoined.grows _ (Grows.grows (p := tokenNode) s.atOperator hs)
    · exact Grows.grows s.atOperator hs

instance : Grows R (assignmentRest returnType) := by
  refine .after fun start => .after fun left => .after fun b => .ite inferInstance ?_
  exact .ite (assignmentOperator_grows start returnType left) inferInstance

instance : Grows R (assignment returnType) := by
  have hrest : Grows R (do
      if let some arrow ← parenthesizedArrow? returnType then return arrow
      if let some arrow ← asyncArrow? returnType then return arrow
      assignmentRest returnType) := by
    refine .after fun o => ?_
    cases o with
    | some arrow => exact inferInstanceAs (Grows R (pure arrow))
    | none =>
      refine .after fun o => ?_
      cases o with
      | some arrow => exact inferInstanceAs (Grows R (pure arrow))
      | none => exact inferInstanceAs (Grows R (assignmentRest returnType))
  unfold assignment
  infer_instance

end Arrows

/-! ### What an assignment is -/

/-- The node is no holder of an expression, a type or a name. -/
def NoHolder (n : Node) : Prop := isHolder n.kind = false

namespace Made

omit [ClimbsGoals R]

lemma attempt {α : Type} {P : α → Prop} {p : Parse (Option α)}
    (h : Made R p fun o => ∀ a ∈ o, P a) : Made R (Parse.attempt p) fun o => ∀ a ∈ o, P a := by
  intro s a ha
  cases hrun : (p.run R s).1 with
  | none =>
    rw [run_attempt_of_none hrun] at ha
    cases ha
  | some b =>
    rw [run_attempt_of_some hrun] at ha
    exact h s a ha

lemma unlessRuledOut {α : Type} {P : α → Prop} {p : Parse (Option α)}
    (h : Made R p fun o => ∀ a ∈ o, P a) :
    Made R (Parse.unlessRuledOut p) fun o => ∀ a ∈ o, P a := by
  intro s a ha
  unfold Parse.unlessRuledOut at ha
  dsimp only at ha
  split at ha
  · cases ha
  · split at ha
    · cases ha
    · exact h.attempt s a ha

lemma deeper {α : Type} {P : α → Prop} {p : Parse α} (h : Made R p P) : Made R (Parse.deeper p) P :=
  fun _ => h _

lemma noHolder {form : Form} {start : Nat} {parts : List Part} {flags : NodeFlags}
    (h : isHolder (.form form) = false) : Made R (Parse.finish form start parts flags) NoHolder :=
  fun _ => h

end Made

section Assignments

variable {returnType : Bool}

omit [ClimbsGoals R]

lemma Operand.noHolder (h : Operand n) : NoHolder n := not_isHolder_of_isOperand h

lemma made_operatorLink : Made R (operatorLink above start left) fun o => ∀ n ∈ o, NoHolder n := by
  refine .after fun operator => .ite .nothing (.after fun _ => .ite .nothing ?_)
  refine .ite (.after fun _ => .ite .nothing ?_) ?_
  · exact .after fun _ => .after fun _ => .given (.noHolder (by split <;> rfl))
  · exact .after fun _ => .after fun _ => .given (.noHolder rfl)

lemma made_simpleArrow {name : Node} {mods : Option NodeList} :
    Made R (simpleArrow start name mods returnType) NoHolder :=
  .after fun _ => .after fun _ => .after fun _ => .noHolder rfl

lemma made_parenthesizedArrow {sure : Bool} :
    Made R (parenthesizedArrow sure returnType) fun o => ∀ n ∈ o, NoHolder n := by
  refine .after fun _ => .after fun _ => .after fun _ => .after fun x => ?_
  obtain ⟨typeParams, params⟩ := x
  cases params with
  | none => exact .nothing
  | some params =>
    refine .after fun _ => .ite .nothing (.after fun _ => .after fun _ => .after fun _ => ?_)
    refine .ite .nothing (.after fun _ => .ite .nothing (.after fun _ => ?_))
    have hwhole (start : Nat) (p : Parse Bool) (c : Bool → Prop) [∀ b, Decidable (c b)]
        {parts : List Part} :
        Made R (do
          if c (← p) then return none
          return some (← finish .arrowFunction start parts)) fun o => ∀ n ∈ o, NoHolder n :=
      .after fun _ => .ite .nothing (.given (.noHolder rfl))
    refine .ite (.after fun _ => ?_) ?_
    all_goals exact .ite (.after fun _ => hwhole _ _ _) (.after fun _ => hwhole _ _ _)

lemma made_parenthesizedArrow? :
    Made R (parenthesizedArrow? returnType) fun o => ∀ n ∈ o, NoHolder n := by
  refine .after fun guess => ?_
  cases guess with
  | no => exact .nothing
  | yes => exact made_parenthesizedArrow.attempt
  | maybe => exact made_parenthesizedArrow.unlessRuledOut

lemma made_asyncArrow? : Made R (asyncArrow? returnType) fun o => ∀ n ∈ o, NoHolder n := by
  refine .after fun _ => .ite (.after fun _ => .after fun _ => .after fun _ => ?_) .nothing
  exact .given made_simpleArrow

lemma made_yieldExpression : Made R yieldExpression NoHolder := by
  refine .after fun _ => .after fun _ => .after fun _ => .ite ?_ (.noHolder rfl)
  exact .after fun _ => .after fun _ => .noHolder rfl

lemma made_conditionalRest {condition : Node} (h : NoHolder condition) :
    Made R (conditionalRest start condition returnType) NoHolder := by
  refine .after fun _ => .ite (.after fun _ => .after fun _ => ?_) (.pure h)
  exact .ite (.after fun _ => .noHolder rfl) (.after fun _ => .noHolder rfl)

end Assignments

lemma made_binary {above : Nat} : Made R (binary above) NoHolder :=
  .after fun _ => made_simpleUnary.bind fun _ h =>
    .iterate h.noHolder fun _ _ => made_operatorLink

/-- **What stands for an assignment is an expression.** -/
lemma made_assignmentRule {returnType : Bool} : Made R (assignment returnType) NoHolder := by
  have hrest : Made R (assignmentRest returnType) NoHolder := by
    refine .after fun start => made_binary.bind fun left hleft => .after fun _ => ?_
    refine .ite made_simpleArrow (.ite (.after fun _ => ?_) (made_conditionalRest hleft))
    refine .ite (.after fun _ => .after fun _ => .noHolder rfl) (made_conditionalRest hleft)
  refine .after fun _ => .ite (.after fun _ => ?_) ?_
  · exact .mono .missing fun n hn => by rw [NoHolder, hn.choose_spec]
  refine .deeper (.after fun _ => .ite made_yieldExpression (made_parenthesizedArrow?.bind ?_))
  intro arrow harrow
  cases arrow with
  | some arrow => exact .pure (harrow arrow rfl)
  | none =>
    refine made_asyncArrow?.bind fun arrow harrow => ?_
    cases arrow with
    | some arrow => exact .pure (harrow arrow rfl)
    | none => exact hrest

end EstreeLint.Grammar
