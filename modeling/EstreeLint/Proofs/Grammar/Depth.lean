import EstreeLint.Proofs.Grammar.FunctionContext

/-!
How deep a tree can be.

Statements, assignments and types count how deep they are nested, and give up at a limit. A link
after an expression is read by a loop instead, which counts nothing, and each link is a node around
all that stands before it. So the tree of a name with marks after it has a level for each mark, and
nothing is reported.
-/

namespace EstreeLint

/-! ### Heights -/

namespace Tree

variable {α : Type}

lemma height_pos (t : Tree α) : 0 < t.height := by
  cases t
  exact Nat.succ_pos _

mutual

/-- The lowest node of a tree has all other levels above it. -/
lemma exists_mem_paths (above : List (Tree α)) :
    ∀ t : Tree α, ∃ p ∈ t.paths above, p.1.length + 1 = above.length + t.height
  | .node a ts => by
    rcases Nat.eq_zero_or_pos (forestHeight ts) with hleaf | hts
    · exact ⟨(above, .node a ts), by simp [paths], by simp [height, hleaf]⟩
    · obtain ⟨p, hp, hlen⟩ := exists_mem_forestPaths (.node a ts :: above) ts hts
      refine ⟨p, List.mem_cons_of_mem _ hp, ?_⟩
      rw [hlen, height, List.length_cons]
      omega

lemma exists_mem_forestPaths (above : List (Tree α)) :
    ∀ ts : List (Tree α), 0 < forestHeight ts →
      ∃ p ∈ forestPaths above ts, p.1.length + 1 = above.length + forestHeight ts
  | [], h => absurd h (Nat.lt_irrefl 0)
  | t :: ts, _ => by
    rcases Nat.le_total t.height (forestHeight ts) with hle | hle
    · obtain ⟨p, hp, hlen⟩ :=
        exists_mem_forestPaths above ts (Nat.lt_of_lt_of_le t.height_pos hle)
      exact ⟨p, List.mem_append_right _ hp, by rw [hlen, forestHeight, Nat.max_eq_right hle]⟩
    · obtain ⟨p, hp, hlen⟩ := exists_mem_paths above t
      exact ⟨p, List.mem_append_left _ hp, by rw [hlen, forestHeight, Nat.max_eq_left hle]⟩

end

@[simp] lemma height_withRole (n : Node) (r : Role) : (n.withRole r).height = n.height := by
  cases n
  rfl

end Tree

namespace Grammar

open Parse

/-! ### A name with marks after it -/

/-- A name and `n` exclamation marks. -/
def marked (n : Nat) : Source := 'a' :: List.replicate n '!'

lemma read_name (n : Nat) (v : Variant) :
    Lexeme.read v 'a' (List.replicate n '!') = ⟨.identifier, 1, ['a'], {}⟩ := by
  have hrest : Word.parts (List.replicate n '!') = {} := by
    cases n <;> rw [Word.parts.eq_def] <;> rfl
  have hparts : Word.parts ('a' :: List.replicate n '!') = ⟨['a'], 1, {}⟩ := by
    rw [Word.parts.eq_def]
    dsimp only
    rw [if_pos (by decide), hrest]
    rfl
  have htrivia : Lexeme.trivia? 'a' (List.replicate n '!') = none := by cases n <;> rfl
  have htoken : Lexeme.token v 'a' (List.replicate n '!') =
      Word.lexeme ('a' :: List.replicate n '!') := by cases v <;> cases n <;> rfl
  rw [Lexeme.read, htrivia, htoken, Word.lexeme, hparts]
  rfl

lemma read_mark (n : Nat) (v : Variant) :
    Lexeme.read v '!' (List.replicate n '!') = ⟨.exclamation, 1, [], {}⟩ := by
  cases v <;> cases n <;> rfl

@[simp] lemma bytes_marked (n : Nat) : Text.bytes (marked n) = n + 1 := by
  have hmarks : Text.bytes (List.replicate n '!') = n := by
    induction n with
    | zero => rfl
    | succ n ih =>
      rw [List.replicate_succ, Text.bytes, ih, show '!'.utf8Size = 1 from rfl, Nat.add_comm]
  rw [marked, Text.bytes, hmarks, show 'a'.utf8Size = 1 from rfl, Nat.add_comm]

/-- The token at hand is the first of `n` marks, with nothing after them; or the end. -/
structure AtMarks (n : Nat) (σ : Scanner) : Prop where
  kind : σ.kind = if n = 0 then .endOfFile else .exclamation
  rest : σ.cursor.rest = List.replicate (n - 1) '!'
  onLine : σ.flags.precedingLineBreak = false
  start : 0 < σ.tokenStart
  pos : 0 < σ.cursor.pos

lemma atMarks_scan {n : Nat} {σ : Scanner} (hrest : σ.cursor.rest = List.replicate n '!')
    (hpos : 0 < σ.cursor.pos) : AtMarks n σ.scan := by
  rw [Scanner.scan, hrest]
  cases n with
  | zero =>
    rw [List.replicate_zero, Scanner.scanFrom]
    exact ⟨rfl, rfl, rfl, hpos, hpos⟩
  | succ n =>
    rw [List.replicate_succ, Scanner.scanFrom]
    simp only [if_neg (Nat.ne_of_gt hpos), Option.getD_none, read_mark]
    exact ⟨rfl, rfl, rfl, hpos, Nat.lt_of_lt_of_le hpos (Nat.le_add_right ..)⟩

/-- A name is at hand, with `n` marks after it and nothing more. -/
structure AtName (n : Nat) (s : State) : Prop where
  kind : s.scanner.kind = .identifier
  rest : s.scanner.cursor.rest = List.replicate n '!'
  pos : 0 < s.scanner.cursor.pos
  limit : n + 2 ≤ s.limit

lemma scanner_marked (n : Nat) (v : Variant) :
    (State.ofSource (marked n) v).scanner =
      (Scanner.ofSource (marked n) v true).accept ⟨0, marked n⟩ ⟨.identifier, 1, ['a'], {}⟩ {} := by
  have hshebang : Lexeme.shebang? ('a' :: List.replicate n '!') = none := rfl
  simp only [State.ofSource, Scanner.scan, Scanner.ofSource, marked]
  rw [Scanner.scanFrom]
  simp only [if_true, hshebang, Option.getD_none, read_name]
  rfl

lemma atName_marked (n : Nat) (v : Variant) : AtName n (State.ofSource (marked n) v) := by
  have hlimit : (State.ofSource (marked n) v).limit = n + 3 := by rw [State.ofSource, bytes_marked]
  refine ⟨?_, ?_, ?_, by omega⟩ <;> rw [scanner_marked]
  · rfl
  · rfl
  · exact Nat.one_pos

/-! ### Links -/

/-- What a mark after an expression makes of it. -/
def nonNull (start : Nat) (e : Node) : Parse Node := do
  next
  finish .nonNullExpression start [.one .expression e] (chainFlags none e)

variable {n : Nat} {s : State} {r : Runner}

/-- A state in which the kind of the token at hand can be seen. -/
lemma eq_of_kind {k : TokenKind} (h : s.scanner.kind = k) :
    s = { s with scanner := { s.scanner with kind := k } } := by
  subst h
  rfl

lemma height_finish (form : Form) (start : Nat) (role : Role) (e : Node) (flags : NodeFlags) :
    ((finish form start [.one role (some e)] flags).run r s).1.height = e.height + 1 := by
  change (Node.ofParts _ _ _ _ _ [.one role (some e)]).height = _
  simp [Node.ofParts, Tree.height, Tree.forestHeight, Part.nodes]

lemma memberLink_mark (h : AtMarks (n + 1) s.scanner) (start : Nat) (optional : Bool) (e : Node) :
    (memberLink start optional e).run r s = (some <$> nonNull start e).run r s := by
  obtain ⟨⟨_, _, _, _, _, _, kind, _, ⟨line, _, _, _, _, _, _, _, _, _, _⟩⟩,
    _, _, _, _, _, _, _⟩ := s
  obtain rfl : kind = .exclamation := by simpa using h.kind
  obtain rfl : line = false := h.onLine
  cases optional <;> rfl

lemma memberLink_end (h : s.scanner.kind = .endOfFile) (start : Nat) (optional : Bool) (e : Node) :
    (memberLink start optional e).run r s = (none, s) := by
  obtain ⟨⟨_, _, _, _, _, _, kind, _, _⟩, ⟨_, _, _, _, decorating⟩, _, _, _, _, _, _⟩ := s
  obtain rfl : kind = .endOfFile := h
  cases optional <;> cases decorating <;> rfl

/-- **Each mark is a node around what stands before it**, however many there are. -/
lemma memberLinks_marks {limit : Nat} (start : Nat) (optional : Bool) (e : Node)
    (h : AtMarks n s.scanner) (hlimit : n < limit) :
    let x := (iterateUpTo (memberLink start optional) limit e).run r s
    x.1.height = e.height + n ∧ AtMarks 0 x.2.scanner ∧ x.2.errors = s.errors := by
  induction n generalizing limit e s with
  | zero =>
    obtain ⟨limit, rfl⟩ := Nat.exists_eq_succ_of_ne_zero (show limit ≠ 0 by omega)
    simp only [iterateUpTo, run_bind, memberLink_end h.kind, run_pure]
    exact ⟨rfl, h, trivial⟩
  | succ n ih =>
    obtain ⟨limit, rfl⟩ := Nat.exists_eq_succ_of_ne_zero (show limit ≠ 0 by omega)
    obtain ⟨hheight, hmarks, herrors⟩ := ih (s := ((nonNull start e).run r s).2)
      ((nonNull start e).run r s).1 (atMarks_scan h.rest h.pos) (show n < limit by omega)
    simp only [iterateUpTo, run_bind, memberLink_mark h]
    refine ⟨?_, hmarks, herrors⟩
    have hlink : ((nonNull start e).run r s).1.height = e.height + 1 := height_finish ..
    exact hheight.trans (by omega)

/-! ### At the end of the text -/

/-- Nothing is left to be read, and repetitions are possible. -/
structure AtEnd (s : State) : Prop where
  kind : s.scanner.kind = .endOfFile
  start : 0 < s.scanner.tokenStart
  limit : 2 ≤ s.limit

lemma run_iterate_of_none {α : Type} {f : α → Parse (Option α)} {a : α} (h : AtEnd s)
    (hf : (f a).run r s = (none, s)) : (iterate f a).run r s = (a, s) := by
  obtain ⟨m, hm⟩ := Nat.exists_eq_succ_of_ne_zero (show s.limit ≠ 0 by have := h.limit; omega)
  have hloop : (iterate f a).run r s = (iterateUpTo f s.limit a).run r s := rfl
  rw [hloop, hm]
  simp only [iterateUpTo, run_bind, hf, run_pure]

lemma memberLinks_end (h : AtEnd s) (start : Nat) (optional : Bool) (e : Node) :
    (memberLinks start optional e).run r s = (e, s) :=
  run_iterate_of_none h (memberLink_end h.kind start optional e)

lemma callLinks_end (h : AtEnd s) (start : Nat) (e : Node) :
    (callLinks start e).run r s = (e, s) := by
  have hcall : (callLink start e).run r s = ((e, false), s) := by
    rw [eq_of_kind h.kind]
    rfl
  have hcurrent : current.run r s = (s, s) := rfl
  obtain ⟨m, hm⟩ : ∃ m, s.limit = m + 2 := ⟨s.limit - 2, by have := h.limit; omega⟩
  rw [callLinks, run_bind, iterate, run_bind, hcurrent]
  dsimp only
  rw [hm]
  simp [iterateUpTo, linksAndCall, run_bind, memberLinks_end h, hcall]

/-! ### A rule that reads all the text -/

/-- A rule reads all the text without errors, to a node of `n` levels. -/
structure ReadsAll (p : Parse Node) (r : Runner) (s : State) (n : Nat) : Prop where
  height : (p.run r s).1.height = n
  atEnd : AtEnd (p.run r s).2
  errors : (p.run r s).2.errors = s.errors

namespace ReadsAll

variable {p q : Parse Node}

lemma congr {r' : Runner} (h : q.run r' s = p.run r s) (hp : ReadsAll p r s n) :
    ReadsAll q r' s n := by
  obtain ⟨hheight, hend, herrors⟩ := hp
  rw [← h] at hheight hend herrors
  exact ⟨hheight, hend, herrors⟩

lemma deeper (h : ReadsAll p r { s with depth := s.depth + 1 } n) : ReadsAll (deeper p) r s n :=
  ⟨h.height, ⟨h.atEnd.kind, h.atEnd.start, h.atEnd.limit⟩, h.errors⟩

/-- What could follow an expression does not follow it at the end of the text. -/
lemma bind {k : Node → Parse Node} (hp : ReadsAll p r s n)
    (hk : ∀ e t, AtEnd t → (k e).run r t = (e, t)) : ReadsAll (p >>= k) r s n := by
  refine hp.congr ?_
  rw [run_bind, hk _ _ hp.atEnd]

lemma withContext {add drop : Context}
    (h : ReadsAll p r { s with context := s.context.change add drop } n) :
    ReadsAll (withContext add drop p) r s n :=
  ⟨h.height, ⟨h.atEnd.kind, h.atEnd.start, h.atEnd.limit⟩, h.errors⟩

end ReadsAll

/-- A rule that may be nested once more is run one level deeper. -/
lemma run_nested {α : Type} {p tooDeep : Parse α} (h : s.depth < maxDepth) :
    (nested tooDeep p).run r s = (deeper p).run r s := by
  have hcurrent : current.run r s = (s, s) := rfl
  rw [nested, run_bind, hcurrent, if_neg (Nat.not_le.2 h)]

/-! ### The rules on the way to a link -/

lemma AtName.congr {t : State} (h : AtName n s) (hscanner : t.scanner = s.scanner)
    (hlimit : t.limit = s.limit) : AtName n t :=
  ⟨hscanner ▸ h.kind, hscanner ▸ h.rest, hscanner ▸ h.pos, hlimit ▸ h.limit⟩

lemma leftHandSide_name (h : AtName n s) : ReadsAll leftHandSide r s (n + 1) := by
  have hrun : leftHandSide.run r s =
      (do let e ← (do memberLinks s.scanner.fullStart true (← word))
          callLinks s.scanner.fullStart e : Parse Node).run r s := by
    rw [eq_of_kind h.kind]
    rfl
  obtain ⟨hheight, hmarks, herrors⟩ := memberLinks_marks (r := r) (s := (word.run r s).2)
    s.scanner.fullStart true (word.run r s).1 (atMarks_scan h.rest h.pos)
    (show n < s.limit by have := h.limit; omega)
  refine .congr hrun (.bind ⟨?_, ⟨hmarks.kind, hmarks.start, ?_⟩, herrors⟩ fun e t ht =>
    callLinks_end ht _ e)
  · have hword : (word.run r s).1.height = 1 := rfl
    exact hheight.trans (by omega)
  · have hlimit := ((do memberLinks s.scanner.fullStart true (← word) : Parse Node).extends_run
      r s).limit
    have := h.limit
    omega

lemma updateExpression_name (h : AtName n s) : ReadsAll updateExpression r s (n + 1) := by
  have helement : atElement.run r s = (false, s) := by
    have hless : (isAt .lessThan <&&> lookAhead (do next; atWord <||> isAt .greaterThan)).run r s =
        (false, s) := by
      rw [eq_of_kind h.kind]
      rfl
    exact (run_and_of_stays rfl hless).trans (by rw [Bool.and_false])
  have htoken : token.run r s = (.identifier, s) := congrArg (·, s) h.kind
  have hrun : updateExpression.run r s = (do
      let operand ← leftHandSide
      if ← atAny [.plusPlus, .minusMinus] <&&> sameLine then
        let operator ← token
        next
        finish .postfixUnaryExpression s.scanner.fullStart
          [.data (.token operator), .one .operand operand]
      else return operand : Parse Node).run r s := by
    rw [updateExpression, run_bind, show pos.run r s = (s.scanner.fullStart, s) from rfl, run_bind,
      htoken]
    dsimp only
    rw [if_neg (by decide), run_bind, helement]
    rfl
  refine .congr hrun (.bind (leftHandSide_name h) fun e t ht => ?_)
  rw [eq_of_kind ht.kind]
  rfl

lemma binary_name (h : AtName n s) (above : Nat) : ReadsAll (binary above) r s (n + 1) := by
  have hunary : ReadsAll simpleUnary r s (n + 1) := by
    have htoken : token.run r s = (.identifier, s) := congrArg (·, s) h.kind
    exact .congr (by rw [simpleUnary, run_bind, htoken]) (updateExpression_name h)
  have hrun : (binary above).run r s =
      (simpleUnary >>= iterate (operatorLink above s.scanner.fullStart)).run r s := rfl
  refine .congr hrun (.bind hunary fun e t ht => run_iterate_of_none ht ?_)
  rw [eq_of_kind ht.kind]
  rfl

lemma assignmentRest_name (h : AtName n s) (returnType : Bool) :
    ReadsAll (assignmentRest returnType) r s (n + 1) := by
  have hpos : pos.run r s = (s.scanner.fullStart, s) := rfl
  refine .congr (by rw [assignmentRest, run_bind, hpos]) (.bind (binary_name h 0) fun e t ht => ?_)
  rw [eq_of_kind ht.kind]
  cases he : e.isToken .identifier <;> cases hleft : isLeftHandSide e.kind <;>
    simp only [Bool.true_and, Bool.false_and] <;> rfl

lemma assignment_name (h : AtName n s) (hdepth : s.depth < maxDepth) (returnType : Bool) :
    ReadsAll (assignment returnType) r s (n + 1) := by
  generalize ht : { s with depth := s.depth + 1 } = t
  have hname : AtName n t := ht ▸ h.congr rfl rfl
  have hyield : atYield.run r t = (false, t) := by
    rw [eq_of_kind hname.kind]
    rfl
  have harrow : (parenthesizedArrow? returnType).run r t = (none, t) := by
    rw [eq_of_kind hname.kind, parenthesizedArrow?, run_bind, arrowGuess, run_lookAhead]
    rfl
  have hasync : (asyncArrow? returnType).run r t = (none, t) := by
    rw [eq_of_kind hname.kind]
    rfl
  refine .congr (run_nested hdepth) (.deeper ?_)
  rw [ht]
  refine .congr ?_ (assignmentRest_name (r := r) hname returnType)
  rw [run_bind, hyield]
  dsimp only
  rw [if_neg Bool.false_ne_true, run_bind, harrow]
  dsimp only
  rw [run_bind, hasync]

/-! ### The whole text -/

lemma reach_name (h : AtName n s) (hdepth : s.depth < maxDepth) (fuel : Nat) (returnType : Bool) :
    ReadsAll (reach (.assignment returnType)) (runner (fuel + 1)) s (n + 1) := by
  refine .congr ?_ (assignment_name (r := runner fuel) h hdepth returnType)
  have hreach : (reach? (.assignment returnType)).run (runner (fuel + 1)) s =
      (some ((assignment returnType).run (runner fuel) s).1,
        ((assignment returnType).run (runner fuel) s).2) := rfl
  rw [reach, run_bind, hreach]
  rfl

lemma expression_name (h : AtName n s) (hdepth : s.depth < maxDepth) (fuel : Nat) :
    ReadsAll expression (runner (fuel + 1)) s (n + 1) := by
  refine .withContext ?_
  generalize ht : { s with context := s.context.change {} { decorating := true } } = t
  have hname : AtName n t := ht ▸ h.congr rfl rfl
  have hpos : pos.run (runner (fuel + 1)) t = (t.scanner.fullStart, t) := rfl
  refine .congr (by rw [run_bind, hpos]) (.bind (reach_name hname (ht ▸ hdepth) fuel true)
    fun e u hu => run_iterate_of_none hu ?_)
  rw [eq_of_kind hu.kind]
  rfl

lemma expressionOrLabeled_name (h : AtName n s) (hdepth : s.depth < maxDepth) (fuel : Nat) :
    ReadsAll expressionOrLabeled (runner (fuel + 1)) s (n + 2) := by
  obtain ⟨hheight, hend, herrors⟩ := expression_name h hdepth fuel
  have hrun : expressionOrLabeled.run (runner (fuel + 1)) s =
      (finish .expressionStatement s.scanner.fullStart
        [.one .expression (expression.run (runner (fuel + 1)) s).1]).run (runner (fuel + 1))
          (expression.run (runner (fuel + 1)) s).2 := by
    have hat : atIdentifier.run (runner (fuel + 1)) s = (true, s) := by
      rw [eq_of_kind h.kind]
      rfl
    rw [expressionOrLabeled, run_bind,
      show pos.run (runner (fuel + 1)) s = (s.scanner.fullStart, s) from rfl, run_bind, hat,
      run_bind]
    generalize expression.run (runner (fuel + 1)) s = x at hend
    obtain ⟨e, t⟩ := x
    rw [eq_of_kind hend.kind]
    dsimp only
    cases he : e.isToken .identifier <;> rfl
  refine ⟨?_, ?_, ?_⟩ <;> rw [hrun]
  · exact (height_finish ..).trans (by omega)
  · exact ⟨hend.kind, hend.start, hend.limit⟩
  · exact herrors

lemma statement_name (h : AtName n s) (hdepth : s.depth + 1 < maxDepth) (fuel : Nat) :
    ∃ e t, statement.run (runner (fuel + 1)) s = (some e, t) ∧ e.height = n + 2 ∧ AtEnd t ∧
      t.errors = s.errors := by
  generalize ht : { s with depth := s.depth + 1 } = t
  have hname : AtName n t := ht ▸ h.congr rfl rfl
  have hany : ReadsAll anyStatement (runner (fuel + 1)) t (n + 2) := by
    refine .congr ?_ (expressionOrLabeled_name hname (ht ▸ hdepth) fuel)
    have htoken : token.run (runner (fuel + 1)) t = (.identifier, t) := congrArg (·, t) hname.kind
    rw [anyStatement, run_bind,
      show pos.run (runner (fuel + 1)) t = (t.scanner.fullStart, t) from rfl, run_bind, htoken]
  subst ht
  rw [statement, run_nested (Nat.lt_of_succ_lt hdepth)]
  exact ⟨_, _, rfl, hany.height, ⟨hany.atEnd.kind, hany.atEnd.start, hany.atEnd.limit⟩, hany.errors⟩

/-- A list of statements with one in it, which is all the text. -/
lemma listUntil_of_one {element : Parse (Option Node)} {t : State} {e : Node}
    (hs : s.scanner.kind ≠ .endOfFile) (hstart : s.scanner.tokenStart = 0) (hlimit : 2 ≤ s.limit)
    (helement : element.run r s = (some e, t)) (hend : AtEnd t) :
    (listUntil [] element).run r s =
      (⟨[e], { pos := s.scanner.fullStart, stop := t.scanner.fullStart }⟩, t) := by
  have hfirst : (elementBefore [] element).run r s = (some (some e), t) := by
    have hat : (atAny [.endOfFile]).run r s = (false, s) := by
      have hnot : ([.endOfFile].contains s.scanner.kind) = false := by simpa using hs
      exact congrArg (·, s) hnot
    have hmoved : (t.scanner.tokenStart == s.scanner.tokenStart) = false := by
      rw [hstart]
      exact beq_eq_false_iff_ne.2 (Nat.ne_of_gt hend.start)
    rw [elementBefore, run_bind, hat]
    dsimp only
    rw [if_neg Bool.false_ne_true, run_bind,
      show tokenStart.run r s = (s.scanner.tokenStart, s) from rfl, run_bind, helement,
      run_bind, show tokenStart.run r t = (t.scanner.tokenStart, t) from rfl]
    dsimp only
    rw [hmoved]
    rfl
  have hsecond : (elementBefore [] element).run r t = (none, t) := by
    rw [eq_of_kind hend.kind]
    rfl
  have hmany : (many (elementBefore [] element)).run r s = ([some e], t) := by
    obtain ⟨m, hm⟩ : ∃ m, s.limit = m + 2 := ⟨s.limit - 2, by omega⟩
    rw [many, run_bind, show current.run r s = (s, s) from rfl]
    dsimp only
    rw [hm]
    simp only [manyUpTo, run_bind, hfirst, hsecond, run_pure]
  rw [listUntil, run_bind, show pos.run r s = (s.scanner.fullStart, s) from rfl, run_bind, hmany]
  rfl

/-- The tree of a name with marks after it has a level for each mark. -/
lemma parseSource_marked (n : Nat) (v : Variant) :
    (parseSource (marked n) v).1.height = n + 3 ∧ (parseSource (marked n) v).2.errors = [] := by
  obtain ⟨fuel, hfuel⟩ : ∃ fuel, fuelFor (Text.bytes (marked n)) = fuel + 2 :=
    ⟨fuelFor (Text.bytes (marked n)) - 2, by rw [fuelFor]; omega⟩
  have hname := atName_marked n v
  obtain ⟨e, t, hrun, hheight, hend, herrors⟩ :=
    statement_name hname (show 1 < maxDepth by decide) fuel
  have hreach : (reach? .statement).run (runner (fuel + 2)) (State.ofSource (marked n) v) =
      (some e, t) := hrun
  have hlist := listUntil_of_one (by rw [hname.kind]; decide) (by rw [scanner_marked]; rfl)
    (show 2 ≤ (State.ofSource (marked n) v).limit from Nat.le_add_left ..) hreach hend
  rw [parseSource, hfuel, sourceFile, run_bind, hlist]
  refine ⟨?_, herrors⟩
  change (Node.ofParts _ _ _ _ _ [.many .statement ⟨[e], _⟩]).height = _
  simp [Node.ofParts, Tree.height, Tree.forestHeight, Part.nodes, hheight]

/-- **The depth of a tree has no limit.** A name with marks after it is read without errors, and its
lowest node has as many nodes above it as there are marks, and two more. -/
theorem marks_nest (name : String) (n : Nat) :
    let file := SourceFile.parse name (marked n)
    file.errors = [] ∧ file.root.height = n + 3 ∧ ∃ p ∈ file.root.paths [], p.1.length = n + 2 := by
  obtain ⟨hheight, herrors⟩ := parseSource_marked n (Variant.ofFileName name)
  obtain ⟨p, hp, hlen⟩ := Tree.exists_mem_paths [] (SourceFile.parse name (marked n)).root
  have hroot : (SourceFile.parse name (marked n)).root.height = n + 3 := hheight
  refine ⟨List.reverse_eq_nil_iff.2 herrors, hroot, p, hp, ?_⟩
  rw [hroot, List.length_nil] at hlen
  omega

/-- There is no bound for all texts on the nodes above a node. -/
theorem no_depth_bound :
    ¬ ∃ bound, ∀ name text, ∀ p ∈ (SourceFile.parse name text).root.paths [],
      p.1.length ≤ bound := by
  rintro ⟨bound, h⟩
  obtain ⟨p, hp, hlen⟩ := Tree.exists_mem_paths [] (SourceFile.parse "a.ts" (marked bound)).root
  have hroot : (SourceFile.parse "a.ts" (marked bound)).root.height = bound + 3 :=
    (parseSource_marked bound _).1
  have hle := h _ _ p hp
  rw [hroot, List.length_nil] at hlen
  omega

end Grammar

end EstreeLint
