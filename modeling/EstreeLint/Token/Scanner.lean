import EstreeLint.Token.Number
import EstreeLint.Token.Punctuation
import EstreeLint.Token.Quoted
import EstreeLint.Trivia

/-!
The scanner: a cursor over a source text and the token it has read last.

`Scanner.scan` reads the next token. Some tokens depend on the grammar around them, and a
parser that knows the place asks for another reading of the last token: `rescanGreater`,
`rescanLess`, `rescanSlash`, `rescanTemplate`, and the readings inside elements.
-/

namespace EstreeLint

/-- Whether `<` may open an element. -/
inductive Variant where
  | standard
  | jsx
deriving DecidableEq, Repr

namespace Lexeme

/-- Characters of a block comment after its opening mark, and whether it is closed. -/
def blockComment (cs : List Char) : Lexeme :=
  match Trivia.blockBody? (Text.bytes cs) cs with
  | some body =>
    { kind := .multiLineCommentTrivia, length := body.length + 4,
      flags := { precedingLineBreak := body.any Text.isLineBreak } }
  | none =>
    { kind := .multiLineCommentTrivia, length := cs.length + 2,
      flags := { precedingLineBreak := cs.any Text.isLineBreak, unterminated := true } }

def isAsciiBlank (c : Char) : Bool := c == ' ' || c == '\t' || c == '\x0B' || c == '\x0C'

/-- The piece of trivia that starts with `c`. Blanks of ASCII are read as one piece. -/
def trivia? (c : Char) (cs : List Char) : Option Lexeme :=
  if c == '\r' && cs.head? == some '\n' then
    some { kind := .newLineTrivia, length := 2, flags := { precedingLineBreak := true } }
  else if Text.isLineBreak c then
    some { kind := .newLineTrivia, length := 1, flags := { precedingLineBreak := true } }
  else if isAsciiBlank c then
    some { kind := .whitespaceTrivia, length := 1 + (cs.takeWhile isAsciiBlank).length }
  else if Text.isBlank c then some { kind := .whitespaceTrivia, length := 1 }
  else if c == '/' then
    match cs with
    | '/' :: cs =>
      some { kind := .singleLineCommentTrivia,
             length := 2 + (cs.takeWhile (!Text.isLineBreak ·)).length }
    | '*' :: cs => some (blockComment cs)
    | _ => none
  else none

/-- The token that starts with `c`, where `c` does not start trivia. -/
def token (variant : Variant) (c : Char) (cs : List Char) : Lexeme :=
  if c == '"' || c == '\x27' then Quoted.stringLexeme c false cs
  else if c == '\x60' then Quoted.templateStart cs
  else if c.isDigit || (c == '.' && cs.head?.any Char.isDigit) then Number.lexeme (c :: cs)
  else if c == '#' && cs.head?.any Text.isIdentifierStart then Word.privateName cs
  else
    match Punctuation.read? (variant == .jsx) c cs with
    | some (kind, length) => { kind, length }
    | none =>
      if Text.isIdentifierStart c || (c == '\\' && cs.head? == some 'u') then Word.lexeme (c :: cs)
      else { kind := .unknown, length := 1 }

/-- The token or piece of trivia at the front of a text that starts with `c`. -/
def read (variant : Variant) (c : Char) (cs : List Char) : Lexeme :=
  (trivia? c cs).getD (token variant c cs)

/-- The `#!` line that may open a file. -/
def shebang? : List Char → Option Lexeme
  | '#' :: '!' :: cs =>
    some { kind := .shebangTrivia, length := 2 + (cs.takeWhile (!Text.isLineBreak ·)).length }
  | _ => none

end Lexeme

/-- A place in a text: the byte offset and the characters from there on. -/
structure Cursor where
  pos : Nat
  rest : List Char
deriving DecidableEq, Repr

namespace Cursor

def ofOffset (source : Source) (pos : Nat) : Cursor := ⟨pos, Text.suffixAt source pos⟩

/-- Moves over `n` characters. -/
def advance (c : Cursor) (n : Nat) : Cursor :=
  ⟨c.pos + Text.bytes (c.rest.take n), c.rest.drop n⟩

end Cursor

/-- The scanner's state. -/
structure Scanner where
  source : Source
  variant : Variant
  skipTrivia : Bool
  /-- Where the next token is looked for. -/
  cursor : Cursor
  /-- Where the last token starts, its trivia included. -/
  fullStart : Nat
  /-- Where the last token starts, its trivia excluded. -/
  start : Cursor
  kind : TokenKind
  value : String
  flags : TokenFlags
deriving DecidableEq

namespace Scanner

/-- A scanner at the start of a text, with no token read. -/
def ofSource (source : Source) (variant : Variant) (skipTrivia : Bool) : Scanner where
  source := source
  variant := variant
  skipTrivia := skipTrivia
  cursor := ⟨0, source⟩
  fullStart := 0
  start := ⟨0, source⟩
  kind := .unknown
  value := ""
  flags := {}

/-! ### Snapshots -/

/-- What a reading changes. -/
structure Snapshot where
  cursor : Cursor
  fullStart : Nat
  start : Cursor
  kind : TokenKind
  value : String
  flags : TokenFlags

def save (s : Scanner) : Snapshot := ⟨s.cursor, s.fullStart, s.start, s.kind, s.value, s.flags⟩

def restore (s : Scanner) (x : Snapshot) : Scanner :=
  { s with
    cursor := x.cursor, fullStart := x.fullStart, start := x.start, kind := x.kind,
    value := x.value, flags := x.flags }

/-- The scanners read the same text in the same way. -/
structure Alike (s t : Scanner) : Prop where
  source : t.source = s.source
  variant : t.variant = s.variant
  skipTrivia : t.skipTrivia = s.skipTrivia

theorem Alike.refl (s : Scanner) : s.Alike s := ⟨rfl, rfl, rfl⟩

theorem Alike.trans {s t u : Scanner} (h : s.Alike t) (h' : t.Alike u) : s.Alike u :=
  ⟨h'.source.trans h.source, h'.variant.trans h.variant, h'.skipTrivia.trans h.skipTrivia⟩

/-- A snapshot is all of a scanner that a reading changes. -/
theorem Alike.restore_save {s t : Scanner} (h : s.Alike t) : t.restore s.save = s := by
  obtain ⟨hsource, hvariant, hskip⟩ := h
  cases s
  cases t
  cases hsource
  cases hvariant
  cases hskip
  rfl

/-- A way to read a token, or to read the last one again. -/
class Reading (f : Scanner → Scanner) : Prop where
  alike (s : Scanner) : s.Alike (f s)

/-! ### Tokens -/

def tokenStart (s : Scanner) : Nat := s.start.pos

def tokenEnd (s : Scanner) : Nat := s.cursor.pos

/-- The source of the last token. -/
def tokenText (s : Scanner) : String :=
  String.ofList ((Text.takeBytes? (s.tokenEnd - s.tokenStart) s.start.rest).getD [])

/-- Moves to an offset and forgets the last token. -/
def reset (s : Scanner) (pos : Nat) : Scanner :=
  let cursor := Cursor.ofOffset s.source (min pos (Text.bytes s.source))
  { s with
    cursor := cursor, fullStart := cursor.pos, start := cursor, kind := .unknown, value := "",
    flags := {} }

/-- Takes what has been read at a place as the last token. -/
def accept (s : Scanner) (start : Cursor) (l : Lexeme) (flags : TokenFlags) : Scanner :=
  { s with
    start := start, cursor := start.advance l.length, kind := l.kind,
    value := String.ofList l.value, flags := flags ∪ l.flags }

/-- Reads from a place on, over trivia if the scanner skips it, collecting flags. -/
def scanFrom (s : Scanner) (pos : Nat) (cs : List Char) (flags : TokenFlags) : Scanner :=
  match cs with
  | [] => s.accept ⟨pos, []⟩ { kind := .endOfFile, length := 0 } flags
  | c :: cs =>
    let l := ((if pos = 0 then Lexeme.shebang? (c :: cs) else none)).getD (.read s.variant c cs)
    if l.kind.isTrivia && s.skipTrivia then
      scanFrom s (pos + Text.bytes ((c :: cs).take l.length)) (cs.drop (l.length - 1))
        (flags ∪ l.flags)
    else s.accept ⟨pos, c :: cs⟩ l flags
termination_by cs.length
decreasing_by rw [List.length_drop, List.length_cons]; omega

/-- Reads the next token. -/
def scan (s : Scanner) : Scanner :=
  { s with fullStart := s.cursor.pos }.scanFrom s.cursor.pos s.cursor.rest {}

theorem scanFrom_alike (s : Scanner) (pos : Nat) (cs : List Char) (flags : TokenFlags) :
    s.Alike (s.scanFrom pos cs flags) := by
  fun_induction scanFrom s pos cs flags with
  | case1 => exact ⟨rfl, rfl, rfl⟩
  | case2 _ _ _ _ _ _ ih => exact ih
  | case3 => exact ⟨rfl, rfl, rfl⟩

instance : Reading scan where
  alike s :=
    let h := scanFrom_alike { s with fullStart := s.cursor.pos } s.cursor.pos s.cursor.rest {}
    ⟨h.source, h.variant, h.skipTrivia⟩

/-- Joins a `>` with the `>` and `=` after it. -/
def rescanGreater (s : Scanner) : Scanner :=
  if s.kind == .greaterThan then
    let (kind, length) := Punctuation.greaterRest s.cursor.rest
    { s with kind := kind, cursor := s.cursor.advance length }
  else s

instance : Reading rescanGreater where
  alike s := by
    unfold rescanGreater
    split <;> exact ⟨rfl, rfl, rfl⟩

/-- Takes the token at hand for the end of the text, unless it is text between tags. -/
def halt (s : Scanner) : Scanner :=
  if s.kind == .jsxText || s.kind == .jsxTextAllWhiteSpaces then s
  else { s with kind := .endOfFile }

instance : Reading halt where
  alike s := by
    unfold halt
    split <;> exact ⟨rfl, rfl, rfl⟩

/-- Cuts `<<` and `<<=` back to `<`. -/
def rescanLess (s : Scanner) : Scanner :=
  if s.kind == .lessThanLessThan || s.kind == .lessThanLessThanEquals then
    { s with kind := .lessThan, cursor := s.start.advance 1 }
  else s

instance : Reading rescanLess where
  alike s := by
    unfold rescanLess
    split <;> exact ⟨rfl, rfl, rfl⟩

/-- Length of a regular expression's body after the opening slash, with the closing slash, and
whether it is closed on its line. A slash in a class or after a backslash does not close it. -/
def regexBody (escaped inClass : Bool) : List Char → Nat × Bool
  | [] => (0, false)
  | c :: cs =>
    if Text.isLineBreak c then (0, false)
    else if !escaped && c == '/' && !inClass then (1, true)
    else
      let (n, closed) :=
        if escaped then regexBody false inClass cs
        else if c == '[' then regexBody false true cs
        else if c == '\\' then regexBody true inClass cs
        else if c == ']' then regexBody false false cs
        else regexBody false inClass cs
      (n + 1, closed)

/-- Reads a `/` or `/=` again as a regular expression with its flags. -/
def rescanSlash (s : Scanner) : Scanner :=
  if s.kind == .slash || s.kind == .slashEquals then
    let after := s.start.rest.drop 1
    let (n, closed) := regexBody false false after
    let mods := ((after.drop n).takeWhile Text.isIdentifierPart).length
    let length := 1 + n + mods
    { s with
      kind := .regularExpressionLiteral, cursor := s.start.advance length,
      value := String.ofList (s.start.rest.take length),
      flags := s.flags ∪ { unterminated := !closed } }
  else s

instance : Reading rescanSlash where
  alike s := by
    unfold rescanSlash
    split <;> exact ⟨rfl, rfl, rfl⟩

/-- Reads a `}` again as the delimiter before a later piece of a template. -/
def rescanTemplate (s : Scanner) : Scanner :=
  let after := Cursor.ofOffset s.source (s.tokenStart + 1)
  let l := Quoted.templateRest after.rest
  { s with
    kind := l.kind, cursor := after.advance (l.length - 1), value := String.ofList l.value,
    flags := s.flags ∪ l.flags }

instance : Reading rescanTemplate := ⟨fun _ => ⟨rfl, rfl, rfl⟩⟩

/-- Reads the next piece between the tags of an element: text, a tag's opening, or a brace. -/
def scanJsxToken (s : Scanner) : Scanner :=
  let s := { s with fullStart := s.cursor.pos }
  match s.cursor.rest with
  | [] => s.accept s.cursor { kind := .endOfFile, length := 0 } {}
  | '<' :: '/' :: _ => s.accept s.cursor { kind := .lessThanSlash, length := 2 } {}
  | '<' :: _ => s.accept s.cursor { kind := .lessThan, length := 1 } {}
  | '\x7b' :: _ => s.accept s.cursor { kind := .openBrace, length := 1 } {}
  | cs =>
    let text := cs.takeWhile fun c => c != '\x7b' && c != '<'
    let kind := if text.all fun c => Text.isBlank c || Text.isLineBreak c
      then .jsxTextAllWhiteSpaces else .jsxText
    s.accept s.cursor { kind := kind, length := text.length, value := text } {}

instance : Reading scanJsxToken where
  alike s := by
    unfold scanJsxToken
    dsimp only
    split <;> exact ⟨rfl, rfl, rfl⟩

/-- Length and flags of the parts and hyphens that may follow the first word of an attribute
or tag name. -/
def jsxNameRest (cs : List Char) : Nat × TokenFlags :=
  match cs with
  | [] => (0, {})
  | c :: cs =>
    if c == '-' then
      let (n, flags) := jsxNameRest cs
      (n + 1, flags)
    else
      let p := Word.parts (c :: cs)
      if p.length = 0 then (0, p.flags)
      else
        let (n, flags) := jsxNameRest (cs.drop (p.length - 1))
        (p.length + n, p.flags ∪ flags)
termination_by cs.length
decreasing_by all_goals simp_wf; try omega

/-- Extends a word to a name with hyphens. -/
def scanJsxIdentifier (s : Scanner) : Scanner :=
  if s.kind.isIdentifierOrKeyword then
    let (n, flags) := jsxNameRest s.cursor.rest
    let s := { s with cursor := s.cursor.advance n, flags := s.flags ∪ flags }
    { s with value := s.tokenText, kind := .ofWord s.tokenText }
  else s

instance : Reading scanJsxIdentifier where
  alike s := by
    unfold scanJsxIdentifier
    split <;> exact ⟨rfl, rfl, rfl⟩

/-- Reads the value of an attribute: a verbatim string if a quote comes next. -/
def scanJsxAttributeValue (s : Scanner) : Scanner :=
  match s.cursor.rest with
  | c :: cs =>
    if c == '"' || c == '\x27' then
      { s with fullStart := s.cursor.pos }.accept s.cursor (Quoted.stringLexeme c true cs) {}
    else s.scan
  | [] => s.scan

instance : Reading scanJsxAttributeValue where
  alike s := by
    unfold scanJsxAttributeValue
    split
    · split
      · exact ⟨rfl, rfl, rfl⟩
      · exact Reading.alike s
    · exact Reading.alike s

/-- The kind and span of the token at or after an offset. -/
def tokenAt (source : Source) (variant : Variant) (pos : Nat) : TokenKind × Nat × Nat :=
  let s := ((ofSource source variant true).reset pos).scan
  (s.kind, s.tokenStart, s.tokenEnd)

end Scanner

end EstreeLint
