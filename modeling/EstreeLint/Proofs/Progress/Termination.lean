import EstreeLint.Proofs.Progress.Statements
import Mathlib.Logic.Relation

/-!
The parse comes to its end of itself: neither the bound on how deep rules are nested nor the bound
on repetitions is ever met.

Both stand in for a recursion that is not bounded. Here the recursion is continued beyond them in
any way whatsoever, and makes no difference to what is parsed.
-/

namespace EstreeLint.Grammar

open Parse

variable {text : Source} {R R' : Runner} {s : State} {m depth : Nat}

/-! ### The recursion -/

/-- Rules nested `depth` deep, below which goals are reached as `beyond` does. -/
def Runner.above (beyond : Runner) : Nat → Runner
  | 0 => beyond
  | depth + 1 =>
    { run := fun g => (rule g).run (beyond.above depth)
      extends_run := fun g => (rule g).extends_run (beyond.above depth)
      remembers := beyond.remembers }

lemma Runner.remembers_above (beyond : Runner) (depth : Nat) :
    (beyond.above depth).remembers = beyond.remembers := by cases depth <;> rfl

/-- Below the deepest rules of a runner every goal is too deep. -/
lemma runner_eq_above (depth : Nat) (remembers : Bool) :
    runner depth remembers = (runner 0 remembers).above depth := by
  induction depth with
  | zero => rfl
  | succ depth ih =>
    let more (R : Runner) : Runner :=
      ⟨fun g => (rule g).run R, fun g => (rule g).extends_run R, remembers⟩
    exact congrArg more ih

/-- **A goal depends only on goals that weigh less.** -/
theorem rule_alike {g : Goal} (hs : Setting text R R' s m g.rank) :
    Alike text R R' (rule g) (rule g) s m :=
  ((rule_proceeds g).starts false hs fun _ => trivial).1

/-- **Below a bound on the weight it does not matter what is beyond as many rules.** The induction
is on the bound: what a rule reaches weighs less than its goal. -/
theorem Runner.agree_above (he : ValidEscapes text) {beyond beyond' : Runner}
    (h : beyond'.remembers = beyond.remembers) {bound depth depth' : Nat} (hd : bound ≤ depth)
    (hd' : bound ≤ depth') : Agree text (beyond.above depth) (beyond'.above depth') bound := by
  have hremembers {depth depth' : Nat} :
      (beyond'.above depth').remembers = (beyond.above depth).remembers := by
    rw [remembers_above, remembers_above, h]
  induction bound generalizing depth depth' with
  | zero => exact ⟨hremembers, fun _ _ _ hlt => absurd hlt (Nat.not_lt_zero _)⟩
  | succ bound ih =>
    obtain ⟨depth, rfl⟩ : ∃ k, depth = k + 1 := ⟨depth - 1, by omega⟩
    obtain ⟨depth', rfl⟩ : ∃ k, depth' = k + 1 := ⟨depth' - 1, by omega⟩
    refine ⟨hremembers, fun {g s m} hsound hlimit hlimit' hlt => ?_⟩
    have hbelow : Agree text (beyond.above depth) (beyond'.above depth') bound :=
      ih (Nat.le_of_succ_le_succ hd) (Nat.le_of_succ_le_succ hd')
    have hs : Setting text (beyond.above depth) (beyond'.above depth') s m g.rank :=
      ⟨he, hsound, hlimit, hlimit', hbelow.mono (Nat.le_of_lt_succ hlt)⟩
    have hrule := rule_alike hs
    refine ⟨⟨hrule.run_eq, hrule.sound, hrule.le⟩, fun hopener => ?_⟩
    cases g with
    | element inExpression =>
      obtain ⟨-, htakes⟩ := Opened.starts (p := element inExpression) 0 false hs fun _ =>
        ⟨by simpa [Goal.opener?] using hopener.symm, by decide⟩
      exact (htakes rfl).resolve_right id
    | _ => simp [Goal.opener?] at hopener

/-- As many nested rules as a text of the given number of bytes can need. -/
def ample (bytes : Nat) : Nat := 4 * bytes + 4

lemma Setting.ofAmple {beyond beyond' : Runner} {depth' : Nat} (he : ValidEscapes text)
    (h : beyond'.remembers = beyond.remembers) (hd : ample (Text.bytes text) ≤ depth)
    (hd' : ample (Text.bytes text) ≤ depth') (hs : s.scanner.Sound text)
    (hlimit : Text.bytes text + 2 ≤ s.limit) (hlimit' : Text.bytes text + 2 ≤ m) :
    Setting text (beyond.above depth) (beyond'.above depth') s m 4 := by
  have hleft : s.left text ≤ Text.bytes text := Nat.sub_le _ _
  unfold ample at hd hd'
  exact ⟨he, hs, hlimit, hlimit', Runner.agree_above he h (by omega) (by omega)⟩

/-! ### A whole parse -/

lemma sound_ofSource (he : ValidEscapes text) (variant : Variant) :
    (State.ofSource text variant).scanner.Sound text :=
  Scanner.scan_sound_of_on he rfl rfl (Cursor.on_front text)

instance : Proceeds 4 sourceFile where
  starts := .sub fun statements => .current fun s => .named

/-- **The result of a parse does not depend on the bounds on it**, nor on what is beyond them. -/
theorem parseSource_above (he : ValidEscapes text) (variant : Variant) {beyond : Runner}
    {limit : Nat} (hd : ample (Text.bytes text) ≤ depth) (hlimit : Text.bytes text + 2 ≤ limit) :
    sourceFile.run (beyond.above depth) { State.ofSource text variant with limit } =
      ((parseSource text variant beyond.remembers).1,
        { (parseSource text variant beyond.remembers).2 with limit }) := by
  have hfuel : ample (Text.bytes text) ≤ fuelFor (Text.bytes text) := by
    unfold ample fuelFor
    omega
  have hs : Setting text (runner (fuelFor (Text.bytes text)) beyond.remembers)
      (beyond.above depth) (State.ofSource text variant) limit 4 := by
    rw [runner_eq_above]
    exact .ofAmple he rfl hfuel hd (sound_ofSource he variant) (Nat.le_refl _) hlimit
  obtain ⟨halike, -⟩ := Proceeds.starts (p := sourceFile) false hs fun _ => trivial
  exact halike.run_eq

/-! ### Cycles of the recursion -/

/-- The second goal, reached at the second place, comes after the first: at a later token, or at
the same token with a lower rank. -/
def Goal.After (g : Goal) (s : State) (g' : Goal) (s' : State) : Prop :=
  s.scanner.tokenStart < s'.scanner.tokenStart ∨
    s.scanner.tokenStart = s'.scanner.tokenStart ∧ g'.rank < g.rank

lemma Goal.After.trans {g g' g'' : Goal} {s s' s'' : State} (h : g.After s g' s')
    (h' : g'.After s' g'' s'') : g.After s g'' s'' := by
  unfold After at *
  omega

/-- **A cycle of goals moves on in the text**, however many goals it goes through. -/
theorem Goal.After.moves {g : Goal} {s s' : State}
    (h : Relation.TransGen (fun x y : Goal × State => x.1.After x.2 y.1 y.2) (g, s) (g, s')) :
    s.scanner.tokenStart < s'.scanner.tokenStart := by
  have : IsTrans (Goal × State) fun x y => x.1.After x.2 y.1 y.2 := ⟨fun _ _ _ => After.trans⟩
  have hafter : g.After s g s' := by rwa [Relation.transGen_eq_self] at h
  exact hafter.resolve_right fun hsame => Nat.lt_irrefl _ hsame.2

lemma Goal.rank_lt (g : Goal) : g.rank < 4 := by cases g <;> simp [Goal.rank]

lemma after_of_weight_lt {g g' : Goal} {s' : State} (hs : s.scanner.Sound text)
    (hs' : s'.scanner.Sound text) (h : weight text g' s' < weight text g s) : g.After s g' s' := by
  have := hs.tokenStart_le
  have := hs'.tokenStart_le
  have := g.rank_lt
  unfold weight State.left at h
  unfold Goal.After
  omega

/-- **The recursion of the grammar only goes on to goals that come after**: what happens at other
goals makes no difference. -/
theorem rule_run_eq (he : ValidEscapes text) {beyond : Runner}
    (hd : ample (Text.bytes text) ≤ depth) (hs : s.scanner.Sound text)
    (hlimit : Text.bytes text + 2 ≤ s.limit) {g : Goal}
    (hremembers : R'.remembers = beyond.remembers)
    (h : ∀ (g' : Goal) (s' : State), s'.scanner.Sound text → g.After s g' s' →
      R'.run g' s' = (beyond.above depth).run g' s') :
    (rule g).run R' s = (rule g).run (beyond.above depth) s := by
  have hself : Setting text (beyond.above depth) (beyond.above depth) s s.limit 4 :=
    .ofAmple he rfl hd hd hs hlimit hlimit
  have hagree : Agree text (beyond.above depth) R' (weight text g s) := by
    refine ⟨by rw [hremembers, Runner.remembers_above], fun {g' s' m} hsound hl hl' hlt => ?_⟩
    obtain ⟨halike, htakes⟩ := hself.agree.goals hsound hl hl'
      (Nat.lt_of_lt_of_le hlt (Nat.add_le_add_left (Nat.le_of_lt g.rank_lt) _))
    refine ⟨⟨?_, halike.sound, halike.le⟩, htakes⟩
    have hafter := after_of_weight_lt hs hsound hlt
    exact (h g' { s' with limit := m } hsound hafter).trans halike.run_eq
  have halike := rule_alike ⟨he, hs, hlimit, hlimit, hagree⟩
  have hkept := ((rule g).extends_run (beyond.above depth) s).limit
  exact halike.run_eq.trans (Prod.ext rfl (by rw [← hkept]))

/-! ### The loops -/

namespace Loop

variable {ι ξ γ : Type} {l : Loop ι ξ γ}

/-- Each round of the loop that is followed by another takes a token, unless the other is only the
end of the loop. -/
def Advances (text : Source) (R : Runner) (l : Loop ι ξ γ) : Prop :=
  ∀ (i j : ι) (s : State), s.scanner.Sound text → Text.bytes text + 2 ≤ s.limit →
    l.again i ((l.step i).run R s).1 = some j →
      Takes R (l.step i) s ∨ l.again j ((l.step j).run R ((l.step i).run R s).2).1 = none

lemma Forward.advances (h : l.Forward 4) (he : ValidEscapes text) (beyond : Runner)
    (hd : ample (Text.bytes text) ≤ depth) : l.Advances text (beyond.above depth) := by
  obtain ⟨rest, hstep, hrest⟩ := h
  intro i j s hs hlimit hagain
  have hset : Setting text (beyond.above depth) (beyond.above depth) s s.limit 4 :=
    .ofAmple he rfl hd hd hs hlimit hlimit
  obtain ⟨-, hstill⟩ := hstep i false hset fun _ => trivial
  exact (hstill rfl).imp_right fun hlast => hrest j _ _ (hlast j hagain)

end Loop

/-- The elements of the lists with commas, and the tokens that close the lists. -/
inductive Listed : TokenKind → Parse Node → Prop where
  | parameter : Listed .closeParen parameter
  | indexParameter : Listed .closeBracket parameter
  | typeParameter : Listed .greaterThan typeParameter
  | typeArgument : Listed .greaterThan (reach .type)
  | tupleElement : Listed .closeBracket tupleElement
  | arrayBinding : Listed .closeBracket arrayBindingElement
  | objectBinding : Listed .closeBrace objectBindingElement
  | argument : Listed .closeParen (withContext {} { noIn := true, decorating := true } listElement)
  | arrayElement : Listed .closeBracket (withContext {} { noIn := true } listElement)
  | objectElement : Listed .closeBrace (withContext {} { noIn := true } objectElement)
  | enumMember : Listed .closeBrace enumMember
  | specifier (form : Form) : Listed .closeBrace (specifier form)
  | importAttribute : Listed .closeBrace importAttribute

/-- The elements of the other lists, and the tokens that the lists run up to. -/
inductive RunUpTo : List TokenKind → Parse (Option Node) → Prop where
  | statement : RunUpTo [] (reach? .statement)
  | blockStatement : RunUpTo [.closeBrace] (reach? .statement)
  | clauseStatement : RunUpTo [.caseKw, .defaultKw, .closeBrace] (reach? .statement)
  | clause : RunUpTo [.closeBrace] clause
  | classMember : RunUpTo [.closeBrace] classMember
  | typeMember : RunUpTo [.closeBrace] typeMember
  | strayMember : RunUpTo [.closeBrace] (some <$> strayMember)
  | attribute : RunUpTo [.greaterThan, .slash] jsxAttribute

lemma Listed.proceeds {close : TokenKind} {element : Parse Node} (h : Listed close element) :
    Proceeds 4 element := by cases h <;> infer_instance

lemma RunUpTo.proceeds {stops : List TokenKind} {element : Parse (Option Node)}
    (h : RunUpTo stops element) : Proceeds 4 element := by cases h <;> infer_instance

/-- All loops of the grammar advance. -/
structure LoopsAdvance (text : Source) (R : Runner) : Prop where
  listed {close : TokenKind} {element : Parse Node} :
    Listed close element → (Loop.elements close element).Advances text R
  runUpTo {stops : List TokenKind} {element : Parse (Option Node)} :
    RunUpTo stops element → (Loop.many (elementBefore stops element)).Advances text R
  heritageTypes : (Loop.many (behind .comma heritageType)).Advances text R
  declarations : (Loop.many (behind .comma variableDeclaration)).Advances text R
  intersections : (Loop.many (behind .ampersand (typeOperand typeOperator))).Advances text R
  unions : (Loop.many (behind .bar (typeOperand intersectionType))).Advances text R
  modifiers : (Loop.many modifier).Advances text R
  variances : (Loop.many varianceWord).Advances text R
  heritageClauses : (Loop.many heritageClause?).Advances text R
  children (opening : Node) : (Loop.many (child opening)).Advances text R
  dottedNames (start : Nat) : (Loop.iterate (dottedName start)).Advances text R
  dottedTags (start : Nat) : (Loop.iterate (dottedTag start)).Advances text R
  templateSpans : (Loop.iterate (nextSpan .templateSpan fullExpression)).Advances text R
  typeSpans :
    (Loop.iterate (nextSpan .templateLiteralTypeSpan (reach .type))).Advances text R
  brackets (start : Nat) : (Loop.iterate (brackets start)).Advances text R
  commas (start : Nat) : (Loop.iterate (commaOperand start)).Advances text R
  members (start : Nat) (allowOptional : Bool) :
    (Loop.iterate (memberLink start allowOptional)).Advances text R
  calls (start : Nat) : (Loop.iterate (linksAndCall start)).Advances text R
  operators (above start : Nat) : (Loop.iterate (operatorLink above start)).Advances text R
  verdicts : (Loop.iterate nextVerdict).Advances text R

/-- **Every loop of the grammar advances**, wherever it is started. -/
theorem loops_advance (he : ValidEscapes text) (beyond : Runner)
    (hd : ample (Text.bytes text) ≤ depth) : LoopsAdvance text (beyond.above depth) := by
  have advances {ι ξ γ : Type} {l : Loop ι ξ γ} (h : l.Forward 4) :
      l.Advances text (beyond.above depth) := h.advances he beyond hd
  have many {α : Type} {p : Parse (Option α)} (h : Starts 4 Anywhere p fun o _ => o = none) :
      (Loop.many p).Advances text (beyond.above depth) := advances (forward_many h)
  have iterate {α : Type} {f : α → Parse (Option α)}
      (h : ∀ a, Starts 4 Anywhere (f a) fun o _ => o = none) :
      (Loop.iterate f).Advances text (beyond.above depth) := advances (forward_iterate h)
  exact
    { listed := fun h => have := h.proceeds; advances (forward_elements _ _)
      runUpTo := fun h => have := h.proceeds; advances (forward_elementBefore _ _)
      heritageTypes := many (behind_starts _ _)
      declarations := many (behind_starts _ _)
      intersections := many (behind_starts _ _)
      unions := many (behind_starts _ _)
      modifiers := many modifier_starts
      variances := many varianceWord_starts
      heritageClauses := many heritageClause?_starts
      children := fun opening => many (child_starts opening)
      dottedNames := fun start => iterate (dottedName_starts start)
      dottedTags := fun start => iterate (dottedTag_starts start)
      templateSpans := advances forward_nextSpan
      typeSpans := advances forward_nextSpan
      brackets := fun start => iterate (brackets_starts start)
      commas := fun start => iterate (commaOperand_starts start)
      members := fun start allowOptional => iterate (memberLink_starts start allowOptional)
      calls := fun start => advances (forward_linksAndCall start)
      operators := fun above start => iterate (operatorLink_starts above start)
      verdicts := advances forward_nextVerdict }

end EstreeLint.Grammar
