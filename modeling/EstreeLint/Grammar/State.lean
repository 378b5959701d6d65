import EstreeLint.Grammar.Error
import EstreeLint.Grammar.Rules
import EstreeLint.Syntax.Node
import EstreeLint.Token.Scanner

/-!
The state of a parse and the steps that the grammar is written in.

A rule of the grammar is a `Parse Node`: it reads tokens from the state and gives the node it
has built. Rules that contain each other refer to each other by a `Goal`, which the enclosing
parse resolves, so every rule is an ordinary definition. `lookAhead` runs a rule and takes back
all that it did; `attempt` takes it back when the rule gives nothing. Nothing is copied for that:
a `Checkpoint` only says how much had been reported and made, and a rule carries the proof that it
leaves all of that as it was.
-/

namespace EstreeLint.Grammar

/-- What the constructs around a place permit there. -/
structure Context where
  /-- `in` is not an operator. -/
  noIn : Bool := false
  /-- `yield` is an operator whatever follows. -/
  yielding : Bool := false
  /-- `await` is an operator whatever follows. -/
  awaiting : Bool := false
  /-- `extends` does not begin a condition. -/
  noConditionalType : Bool := false
  /-- `[` does not continue the expression. -/
  decorating : Bool := false
deriving DecidableEq, Repr

namespace Context

/-- Adds one set of conditions and then takes another away. -/
def change (c add drop : Context) : Context where
  noIn := (c.noIn || add.noIn) && !drop.noIn
  yielding := (c.yielding || add.yielding) && !drop.yielding
  awaiting := (c.awaiting || add.awaiting) && !drop.awaiting
  noConditionalType := (c.noConditionalType || add.noConditionalType) && !drop.noConditionalType
  decorating := (c.decorating || add.decorating) && !drop.decorating

end Context

/-- A token that the parse has taken. -/
structure Taken where
  kind : TokenKind
  start : Nat
  stop : Nat
  unterminated : Bool
deriving DecidableEq, Repr

/-- How deep statements, expressions and types may be nested. -/
def maxDepth : Nat := 500

structure State where
  scanner : Scanner
  context : Context := {}
  /-- The errors so far, last first. -/
  errors : List SyntaxError := []
  depth : Nat := 0
  /-- Where a parenthesis has been found not to open the parameters of an arrow function, once
  for each time. -/
  notArrow : List Nat := []
  /-- The nodes made so far. A node is numbered by its place among them. -/
  arena : Array Node := #[]
  /-- The tokens taken so far, last first. -/
  taken : List Taken := []
  /-- How often a rule may be repeated: more often than the text has tokens. -/
  limit : Nat

/-- Rules that are referred to from inside themselves. -/
inductive Goal where
  | statement
  /-- An assignment or anything that binds tighter; whether an arrow function in it may have a
  return type. -/
  | assignment (returnType : Bool)
  /-- A binary operation with operators that bind tighter than the given precedence. -/
  | binary (above : Nat)
  | simpleUnary
  | leftHandSide
  | primary
  /-- An element; whether it stands where an expression is read. -/
  | element (inExpression : Bool)
  | type
  | typeOperator
  | binding
  /-- The rest of a dotted namespace name with the body; whether `namespace` opened it. -/
  | innerNamespace (namespaceWord : Bool)
deriving DecidableEq, Repr

/-- What no step of a parse undoes: errors, tokens and nodes are only added, the text is read in
the same way, and the conditions that hold around a step are as it found them. -/
structure State.Extends (s t : State) : Prop where
  scanner : s.scanner.Alike t.scanner
  errors : s.errors <:+ t.errors
  arena : ∃ later, t.arena = s.arena ++ later
  taken : s.taken <:+ t.taken
  notArrow : s.notArrow <:+ t.notArrow
  context : t.context = s.context
  depth : t.depth = s.depth
  limit : t.limit = s.limit

namespace State.Extends

variable {s t u : State}

theorem refl (s : State) : s.Extends s :=
  ⟨.refl _, ⟨[], rfl⟩, ⟨#[], by simp⟩, ⟨[], rfl⟩, ⟨[], rfl⟩, rfl, rfl, rfl⟩

theorem trans (h : s.Extends t) (h' : t.Extends u) : s.Extends u where
  scanner := h.scanner.trans h'.scanner
  errors := h.errors.trans h'.errors
  arena := by
    obtain ⟨xs, hx⟩ := h.arena
    obtain ⟨ys, hy⟩ := h'.arena
    exact ⟨xs ++ ys, by rw [hy, hx, Array.append_assoc]⟩
  taken := h.taken.trans h'.taken
  notArrow := h.notArrow.trans h'.notArrow
  context := h'.context.trans h.context
  depth := h'.depth.trans h.depth
  limit := h'.limit.trans h.limit

end State.Extends

/-- What is kept to take a rule back: where the scanner stood, the conditions, and how much had
been reported and made. -/
structure Checkpoint where
  scanner : Scanner.Snapshot
  context : Context
  errors : Nat
  nodes : Nat
  taken : List Taken

namespace State

def checkpoint (s : State) : Checkpoint :=
  ⟨s.scanner.save, s.context, s.errors.length, s.arena.size, s.taken⟩

/-- Goes back to a checkpoint. What has been learnt of parentheses is kept. -/
def rewind (s : State) (c : Checkpoint) : State :=
  { s with
    scanner := s.scanner.restore c.scanner
    context := c.context
    errors := s.errors.drop (s.errors.length - c.errors)
    arena := s.arena.take c.nodes
    taken := c.taken }

/-- **Steps that undo nothing are taken back whole**, up to what they learnt of parentheses. -/
theorem Extends.rewind_checkpoint {s t : State} (h : s.Extends t) :
    t.rewind s.checkpoint = { s with notArrow := t.notArrow } := by
  obtain ⟨later, harena⟩ := h.arena
  have herrors : t.errors.drop (t.errors.length - s.errors.length) = s.errors :=
    (List.suffix_iff_eq_drop.1 h.errors).symm
  have hnodes : t.arena.take s.arena.size = s.arena := by simp [harena]
  simp only [rewind, checkpoint, h.scanner.restore_save, herrors, hnodes, h.depth, h.limit]

/-- The parenthesis at hand does not open the parameters of an arrow function. -/
def ruleOut (s : State) : State := { s with notArrow := s.scanner.tokenStart :: s.notArrow }

theorem extends_ruleOut (s : State) : s.Extends s.ruleOut :=
  { Extends.refl s with notArrow := s.notArrow.suffix_cons _ }

/-- What has been learnt of parentheses may be added to. -/
theorem Extends.learn {s t : State} (h : s.Extends t) :
    s.Extends { s with notArrow := t.notArrow } :=
  { Extends.refl s with notArrow := h.notArrow }

end State

/-- How goals are reached. -/
structure Runner where
  run : Goal → State → Option Node × State
  extends_run : ∀ (g : Goal) (s : State), s.Extends (run g s).2
  /-- Whether a parenthesis that has been ruled out is not tried again. -/
  remembers : Bool := true

/-- No goal is reached. -/
def Runner.idle : Runner := ⟨fun _ s => (none, s), fun _ s => .refl s, true⟩

/-- The second runner tries every parenthesis again, and reaches what the first does as long as
that one rules none out twice. -/
structure Runner.Agrees (r r' : Runner) : Prop where
  forgets : r'.remembers = false
  run_eq : ∀ (g : Goal) (s : State), (r.run g s).2.notArrow.Nodup → r'.run g s = r.run g s

/-- A rule of the grammar, given how goals are reached. -/
structure Parse (α : Type) where
  run : Runner → State → α × State
  extends_run : ∀ (r : Runner) (s : State), s.Extends (run r s).2
  agrees_run : ∀ {r r' : Runner}, r.Agrees r' → ∀ s : State, (run r s).2.notArrow.Nodup →
    run r' s = run r s

namespace Parse

variable {α β : Type}

/-- A rule that reaches no goal. -/
def ofState (run : State → α × State) (h : ∀ s : State, s.Extends (run s).2) : Parse α :=
  ⟨fun _ => run, fun _ => h, fun _ _ _ => rfl⟩

instance : Monad Parse where
  pure a := ofState (fun s => (a, s)) .refl
  bind p f :=
    { run r s :=
        let x := p.run r s
        (f x.1).run r x.2
      extends_run r s := (p.extends_run r s).trans ((f _).extends_run r _)
      agrees_run h s hn := by
        have hfirst := ((f _).extends_run _ _).notArrow.sublist.nodup hn
        dsimp only
        rw [p.agrees_run h s hfirst]
        exact (f _).agrees_run h _ hn }

@[simp] theorem run_pure (a : α) (r : Runner) (s : State) : (pure a : Parse α).run r s = (a, s) :=
  rfl

theorem run_bind (p : Parse α) (f : α → Parse β) (r : Runner) (s : State) :
    (p >>= f).run r s = (f (p.run r s).1).run r (p.run r s).2 := rfl

instance : LawfulMonad Parse :=
  LawfulMonad.mk' Parse (fun _ => rfl) (fun _ _ => rfl) (fun _ _ _ => rfl)

/-- The state as it is. -/
def current : Parse State := ofState (fun s => (s, s)) .refl

/-- Changes the state in a way that undoes nothing. -/
def change (f : State → State) (h : ∀ s : State, s.Extends (f s)) : Parse Unit :=
  ofState (fun s => ((), f s)) h

/-! ### The token at hand -/

def token : Parse TokenKind := return (← current).scanner.kind

/-- The token at hand is of the given kind. -/
def isAt (k : TokenKind) : Parse Bool := return (← token) == k

/-- The token at hand is of one of the given kinds. -/
def atAny (ks : List TokenKind) : Parse Bool := return ks.contains (← token)

/-- Where the token at hand starts, its trivia included. A node that begins with it starts
there, and a node that has just been read stops there. -/
def pos : Parse Nat := return (← current).scanner.fullStart

/-- Where the token at hand starts, its trivia excluded. -/
def tokenStart : Parse Nat := return (← current).scanner.tokenStart

/-- The token at hand is the first on its line. -/
def afterLineBreak : Parse Bool := return (← current).scanner.flags.precedingLineBreak

def sameLine : Parse Bool := return !(← afterLineBreak)

def tokenValue : Parse String := return (← current).scanner.value

def isJsx : Parse Bool := return (← current).scanner.variant == .jsx

def inContext (f : Context → Bool) : Parse Bool := return f (← current).context

/-- Reads the token at hand again in another way. -/
def rescan (f : Scanner → Scanner) [Scanner.Reading f] : Parse TokenKind := do
  change (fun s => { s with scanner := f s.scanner })
    fun s => { State.Extends.refl s with scanner := Scanner.Reading.alike _ }
  token

/-- Takes the token at hand and reads another. -/
def takeWith (f : Scanner → Scanner) [Scanner.Reading f] : Parse Unit :=
  change
    (fun s =>
      { s with
        scanner := f s.scanner
        taken := ⟨s.scanner.kind, s.scanner.tokenStart, s.scanner.tokenEnd,
          s.scanner.flags.unterminated⟩ :: s.taken })
    fun s =>
      { State.Extends.refl s with
        scanner := Scanner.Reading.alike _
        taken := s.taken.suffix_cons _ }

/-- Takes the token at hand. -/
def next : Parse Unit := takeWith Scanner.scan

/-- Takes the token at hand and gives the kind of the one after it. -/
def nextToken : Parse TokenKind := do
  next
  token

/-! ### Errors -/

/-- Reports an error, unless the last one was reported at the same place. -/
def errorAt (start length : Nat) (fault : SyntaxFault) : Parse Unit :=
  change
    (fun s =>
      if s.errors.head?.any (·.start == start) then s
      else { s with errors := ⟨start, length, fault⟩ :: s.errors })
    fun s => by
      split
      · exact .refl s
      · exact { State.Extends.refl s with errors := s.errors.suffix_cons _ }

/-- Reports an error on the token at hand. -/
def error (fault : SyntaxFault) : Parse Unit := do
  let s ← current
  errorAt s.scanner.tokenStart (s.scanner.tokenEnd - s.scanner.tokenStart) fault

def errorCount : Parse Nat := return (← current).errors.length

/-! ### Context, depth, looking ahead -/

/-- Runs a rule with conditions added and then others dropped. -/
def withContext (add drop : Context) (p : Parse α) : Parse α where
  run r s :=
    let x := p.run r { s with context := s.context.change add drop }
    (x.1, { x.2 with context := s.context })
  extends_run r s :=
    let h := p.extends_run r { s with context := s.context.change add drop }
    { h with context := rfl }
  agrees_run h s hn := by
    dsimp only
    rw [p.agrees_run h _ hn]

/-- Runs a rule one level deeper. -/
def deeper (p : Parse α) : Parse α where
  run r s :=
    let x := p.run r { s with depth := s.depth + 1 }
    (x.1, { x.2 with depth := x.2.depth - 1 })
  extends_run r s :=
    let h := p.extends_run r { s with depth := s.depth + 1 }
    { h with depth := congrArg (· - 1) h.depth }
  agrees_run h s hn := by
    dsimp only
    rw [p.agrees_run h _ hn]

/-- Runs a rule one level deeper, or reports that it is too deep and runs the other. -/
def nested (tooDeep p : Parse α) : Parse α := do
  if maxDepth ≤ (← current).depth then
    error .nestingTooDeep
    tooDeep
  else deeper p

/-- What a rule gives, with all that it did taken back. -/
def lookAhead (p : Parse α) : Parse α where
  run r s :=
    let c := s.checkpoint
    let x := p.run r s
    (x.1, x.2.rewind c)
  extends_run r s := by
    dsimp only
    rw [(p.extends_run r s).rewind_checkpoint]
    exact (p.extends_run r s).learn
  agrees_run h s hn := by
    dsimp only
    rw [p.agrees_run h s hn]

/-- Runs a rule and takes back what it did if it gives nothing. -/
def attempt (p : Parse (Option α)) : Parse (Option α) where
  run r s :=
    let c := s.checkpoint
    let x := p.run r s
    if x.1.isNone then (x.1, x.2.rewind c) else x
  extends_run r s := by
    dsimp only
    split
    · rw [(p.extends_run r s).rewind_checkpoint]
      exact (p.extends_run r s).learn
    · exact p.extends_run r s
  agrees_run {r _} h s hn := by
    have hrun : (p.run r s).2.notArrow.Nodup := by
      dsimp only at hn
      split at hn <;> exact hn
    dsimp only
    rw [p.agrees_run h s hrun]

theorem run_lookAhead (p : Parse α) (r : Runner) (s : State) :
    (lookAhead p).run r s = ((p.run r s).1, { s with notArrow := (p.run r s).2.notArrow }) :=
  congrArg (Prod.mk _) (p.extends_run r s).rewind_checkpoint

theorem run_attempt_of_none {p : Parse (Option α)} {r : Runner} {s : State}
    (h : (p.run r s).1 = none) :
    (attempt p).run r s = (none, { s with notArrow := (p.run r s).2.notArrow }) := by
  simp [attempt, h, (p.extends_run r s).rewind_checkpoint]

theorem run_attempt_of_some {p : Parse (Option α)} {r : Runner} {s : State} {a : α}
    (h : (p.run r s).1 = some a) : (attempt p).run r s = p.run r s := by
  simp [attempt, h]

/-- Runs a rule, unless the parenthesis at hand has been ruled out, and takes back what it did if
it gives nothing. Either way a parenthesis where it gives nothing is ruled out. -/
def unlessRuledOut (p : Parse (Option α)) : Parse (Option α) where
  run r s :=
    if r.remembers && s.notArrow.contains s.scanner.tokenStart then (none, s.ruleOut)
    else
      let x := (attempt p).run r s
      if x.1.isNone then (none, x.2.ruleOut) else x
  extends_run r s := by
    have h := (attempt p).extends_run r s
    split
    · exact s.extends_ruleOut
    · dsimp only
      split
      · exact h.trans (State.extends_ruleOut _)
      · exact h
  agrees_run {r r'} h s hn := by
    split at hn
    · next hit =>
      have hknown : s.scanner.tokenStart ∈ s.notArrow := by simp_all
      exact absurd hknown (List.nodup_cons.1 hn).1
    · next miss =>
      have hrun : ((attempt p).run r s).2.notArrow.Nodup := by
        dsimp only at hn
        split at hn
        · exact (List.nodup_cons.1 hn).2
        · exact hn
      dsimp only
      rw [if_neg miss, (attempt p).agrees_run h s hrun, h.forgets, Bool.false_and,
        if_neg Bool.false_ne_true]

/-- The kind of the token after the one at hand. -/
def peek : Parse TokenKind := lookAhead nextToken

/-! ### Nodes -/

/-- Makes a node over a stretch of the text. -/
def node (kind : NodeKind) (start stop : Nat) (parts : List Part := []) (flags : NodeFlags := {}) :
    Parse Node :=
  ofState
    (fun s =>
      let n := Node.ofParts s.arena.size kind start stop flags parts
      (n, { s with arena := s.arena.push n }))
    fun s => { State.Extends.refl s with arena := ⟨_, Array.push_eq_append⟩ }

/-- A node that stops before the token at hand. -/
def finish (form : Form) (start : Nat) (parts : List Part := []) (flags : NodeFlags := {}) :
    Parse Node := do
  node (.form form) start (← pos) parts flags

/-- A name without text that stands for one that is missing. -/
def missing : Parse Node := do
  let here ← pos
  node (.token .identifier) here here [.data (.name "")] { hasError := true }

/-- What a goal gives, if it gives anything. -/
def reach? (g : Goal) : Parse (Option Node) where
  run r s := r.run g s
  extends_run r s := r.extends_run g s
  agrees_run h s := h.run_eq g s

/-- What a goal gives, or a missing name. -/
def reach (g : Goal) : Parse Node := do
  match ← reach? g with
  | some n => return n
  | none => missing

/-- Takes the token at hand as a node. -/
def tokenNode : Parse Node := do
  let start ← pos
  let kind ← token
  next
  node (.token kind) start (← pos)

/-- Takes the token at hand as a node with a payload. -/
def leaf (kind : NodeKind) (payload : Payload) : Parse Node := do
  let start ← pos
  next
  node kind start (← pos) [.data payload]

def optionalToken (k : TokenKind) : Parse (Option Node) := do
  if ← isAt k then return some (← tokenNode) else return none

/-- A literal, or a piece of a template. -/
def literal : Parse Node := do
  let kind ← token
  let unterminated := (← current).scanner.flags.unterminated
  if unterminated then
    error <| match kind with
      | .stringLiteral => .unterminatedString
      | .regularExpressionLiteral => .unterminatedRegularExpression
      | _ => .unterminatedTemplate
  leaf (.token kind) (.literal (← tokenValue) unterminated)

/-! ### Expected tokens -/

/-- Takes the token at hand if it is of the given kind. -/
def accept (k : TokenKind) : Parse Bool := do
  if ← isAt k then
    next
    return true
  else return false

/-- Takes a token of the given kind or reports that it is missing. -/
def expect (k : TokenKind) : Parse Bool := do
  if ← accept k then return true
  else
    error (.expected k)
    return false

def expect_ (k : TokenKind) : Parse Unit := discard (expect k)

/-- A statement may stop here without a semicolon. -/
def atStatementEnd : Parse Bool :=
  atAny [.semicolon, .closeBrace, .endOfFile] <||> afterLineBreak

/-- The semicolon that closes a statement, written or not. -/
def semicolon : Parse Unit := do
  if ← accept .semicolon then return
  if ← atStatementEnd then return
  expect_ .semicolon

/-! ### Names -/

/-- The token at hand is a name, or a word that may be one here. -/
def atIdentifier : Parse Bool := do
  match ← token with
  | .identifier => return true
  | .yieldKw => return !(← inContext (·.yielding))
  | .awaitKw => return !(← inContext (·.awaiting))
  | k => return k.isIdentifierOrKeyword && !k.isReservedWord

def atWord : Parse Bool := return (← token).isIdentifierOrKeyword

/-- The token at hand can name a property as it stands. -/
def atLiteralName : Parse Bool :=
  atWord <||> atAny [.stringLiteral, .numericLiteral, .bigIntLiteral]

/-- The word at hand as a name. -/
def word : Parse Node := do leaf (.token .identifier) (.name (← tokenValue))

def identifier : Parse Node := do
  if ← atIdentifier then word
  else if ← atWord then
    error .reservedWordAsIdentifier
    word
  else
    error .identifierExpected
    missing

/-- A name that may be any word. -/
def identifierName : Parse Node := do
  if ← atWord then word
  else
    error .identifierExpected
    missing

def privateIdentifier : Parse Node := do leaf (.token .privateIdentifier) (.name (← tokenValue))

/-- A name on the line of the token at hand comes next. -/
def identifierFollowsOnLine : Parse Bool := lookAhead do
  next
  sameLine <&&> atIdentifier

/-! ### Repetition -/

/-- A bound has been met that no text should meet: that is reported, and the text ends here as far
as the parse is concerned. -/
def giveUp : Parse Unit := do
  error .nestingTooDeep
  discard (rescan Scanner.halt)

/-- Repeats a rule while it gives something, at most `n` times. Where it gives something more often
the parse gives up. -/
def manyUpTo (p : Parse (Option α)) : Nat → Parse (List α)
  | 0 => do
    giveUp
    return []
  | n + 1 => do
    match ← p with
    | some a => return a :: (← manyUpTo p n)
    | none => return []

/-- Repeats a rule while it gives something. -/
def many (p : Parse (Option α)) : Parse (List α) := do manyUpTo p (← current).limit

/-- Replaces a value by what a rule makes of it while it makes something, at most `n` times. Where
it makes something more often the parse gives up. -/
def iterateUpTo (f : α → Parse (Option α)) : Nat → α → Parse α
  | 0, a => do
    giveUp
    return a
  | n + 1, a => do
    match ← f a with
    | some b => iterateUpTo f n b
    | none => return a

/-- Replaces a value by what a rule makes of it while it makes something. -/
def iterate (f : α → Parse (Option α)) (a : α) : Parse α := do
  iterateUpTo f (← current).limit a

/-- Nodes in a list that has just been read. -/
def listFrom (start : Nat) (nodes : List Node) : Parse NodeList :=
  return ⟨nodes, { pos := start, stop := ← pos }⟩

/-- A list unless it is empty. -/
def listFrom? (start : Nat) (nodes : List Node) : Parse (Option NodeList) := do
  if nodes.isEmpty then return none else return some (← listFrom start nodes)

/-- How an element of a list with commas was left. -/
inductive Separation where
  | comma
  | closed
  /-- The comma was missing; whether the list is given up. -/
  | broken (giveUp : Bool)

/-- What follows an element that began at `before`, where the list is closed by `close`. A
missing comma is reported, and a token that no element takes is dropped. -/
def separation (close : TokenKind) (before : Nat) : Parse Separation := do
  if ← accept .comma then return .comma
  if ← isAt close then return .closed
  expect_ .comma
  if (← tokenStart) == before then next
  return .broken (← atAny [.semicolon, .closeBrace])

/-- The elements of a list with commas, and whether the last comma stands behind all of them. -/
def elementsUpTo (close : TokenKind) (element : Parse Node) : Nat → Bool → Parse (List Node × Bool)
  | 0, trailing => do
    giveUp
    return ([], trailing)
  | n + 1, trailing => do
    if ← atAny [close, .endOfFile] then return ([], trailing)
    let before ← tokenStart
    let first ← element
    match ← separation close before with
    | .comma =>
      let (rest, trailing) ← elementsUpTo close element n true
      return (first :: rest, trailing)
    | .closed | .broken true => return ([first], false)
    | .broken false =>
      let (rest, trailing) ← elementsUpTo close element n false
      return (first :: rest, trailing)

/-- Elements with commas between them, up to the token that closes the list. -/
def commaList (close : TokenKind) (element : Parse Node) : Parse NodeList := do
  let start ← pos
  let (nodes, trailing) ← elementsUpTo close element (← current).limit false
  return ⟨nodes, { pos := start, stop := ← pos, trailingComma := trailing }⟩

/-- Elements with commas between an opening and a closing token. -/
def enclosedList (opening closing : TokenKind) (element : Parse Node) : Parse NodeList := do
  expect_ opening
  let list ← commaList closing element
  expect_ closing
  return list

/-- One element of a list that runs up to one of the tokens `stops`. A token that no element
takes is reported and dropped. -/
def elementBefore (stops : List TokenKind) (element : Parse (Option Node)) :
    Parse (Option (Option Node)) := do
  if ← atAny (.endOfFile :: stops) then return none
  let before ← tokenStart
  let found ← element
  if (← tokenStart) == before && !(← atAny stops) then
    error .statementExpected
    next
  return some found

/-- Elements up to one of the tokens `stops`. -/
def listUntil (stops : List TokenKind) (element : Parse (Option Node)) : Parse NodeList := do
  let start ← pos
  let found ← many (elementBefore stops element)
  listFrom start (found.filterMap id)

/-- What a rule gives behind a token, if the token is there. -/
def behind (k : TokenKind) (p : Parse α) : Parse (Option α) := do
  if ← accept k then return some (← p) else return none

/-- One or more elements with a comma between each two. -/
def separated (element : Parse Node) : Parse (List Node) := do
  let first ← element
  let rest ← many (behind .comma element)
  return first :: rest

end Parse

end EstreeLint.Grammar
