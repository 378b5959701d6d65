import EstreeLint.Token.Lexeme
import EstreeLint.Token.Word
import EstreeLint.Token.Number
import EstreeLint.Text.Blank

/-!
String literals, template pieces, and their escapes.
-/

namespace EstreeLint.Quoted

/-- An escape: the characters it stands for, and how many follow its backslash. -/
structure Escape where
  value : List Char
  length : Nat
  flags : TokenFlags := {}
deriving DecidableEq, Repr

/-- An octal escape: up to three digits if the first is at most 3, else up to two. -/
def octalEscape (c : Char) (cs : List Char) : Escape :=
  let limit := if c ≤ '3' then 2 else 1
  let digits := c :: (cs.take limit).takeWhile Number.isOctalDigit
  let code := digits.foldl (fun n d => 8 * n + (d.toNat - '0'.toNat)) 0
  ⟨[(Word.scalar? code).getD '\uFFFD'], digits.length, {}⟩

/-- An escape that is not valid keeps its source. -/
def invalidEscape (source : List Char) (flags : TokenFlags) : Escape :=
  ⟨'\\' :: source, source.length, { flags with containsInvalidEscape := true }⟩

def unicodeEscape (cs : List Char) : Escape :=
  let e := Word.unicodeEscape cs
  let flags : TokenFlags := { extendedUnicodeEscape := e.extended }
  match e.value with
  | some d => ⟨[d], 1 + e.length, flags⟩
  | none => invalidEscape ('u' :: cs.take e.length) flags

def hexEscape (cs : List Char) : Escape :=
  match (Word.hexDigits? 2 cs).bind Word.scalar? with
  | some d => ⟨[d], 3, {}⟩
  | none => invalidEscape ['x'] {}

/-- The character that a single letter stands for. -/
def letterEscape? (c : Char) : Option Char :=
  match c with
  | 'b' => some '\x08'
  | 't' => some '\t'
  | 'n' => some '\n'
  | 'v' => some '\x0B'
  | 'f' => some '\x0C'
  | 'r' => some '\r'
  | _ => none

/-- Reads what follows a backslash. Octal escapes are for strings only; a line break after the
backslash stands for nothing. -/
def escape (isTemplate : Bool) : List Char → Escape
  | [] => ⟨[], 0, { unterminated := true }⟩
  | c :: cs =>
    if c == '0' && !cs.head?.any Char.isDigit then ⟨['\x00'], 1, {}⟩
    else if Number.isOctalDigit c && !isTemplate then octalEscape c cs
    else if c.isDigit && isTemplate then invalidEscape [c] {}
    else if c == 'u' then unicodeEscape cs
    else if c == 'x' then hexEscape cs
    else if c == '\r' then ⟨[], if cs.head? == some '\n' then 2 else 1, {}⟩
    else if Text.isLineBreak c then ⟨[], 1, {}⟩
    else ⟨[(letterEscape? c).getD c], 1, {}⟩

/-- The text up to a closing delimiter: its value, and its length with the delimiter. -/
structure Body where
  value : List Char := []
  length : Nat := 0
  flags : TokenFlags := {}
deriving DecidableEq, Repr

def Body.prepend (value : List Char) (length : Nat) (flags : TokenFlags) (b : Body) : Body :=
  ⟨value ++ b.value, length + b.length, flags ∪ b.flags⟩

/-- Reads a string after its opening quote. A line feed or carriage return ends it unclosed.
In a verbatim string, as attributes hold, only the quote has a meaning. -/
def stringBody (quote : Char) (verbatim : Bool) (cs : List Char) : Body :=
  match cs with
  | [] => { flags := { unterminated := true } }
  | c :: cs =>
    if c == quote then { length := 1 }
    else if verbatim then (stringBody quote verbatim cs).prepend [c] 1 {}
    else if c == '\\' then
      let e := escape false cs
      (stringBody quote verbatim (cs.drop e.length)).prepend e.value (1 + e.length) e.flags
    else if c == '\n' || c == '\r' then { flags := { unterminated := true } }
    else (stringBody quote verbatim cs).prepend [c] 1 {}
termination_by cs.length
decreasing_by all_goals simp_wf; try omega

/-- A template piece after its opening delimiter. The flag of the result tells whether it ends
at a substitution. -/
def templateBody (cs : List Char) : Body × Bool :=
  match cs with
  | [] => ({ flags := { unterminated := true } }, false)
  | c :: cs =>
    if c == '\x60' then ({ length := 1 }, false)
    else if c == '$' && cs.head? == some '\x7b' then ({ length := 2 }, true)
    else if c == '\\' then
      let e := escape true cs
      let (b, more) := templateBody (cs.drop e.length)
      (b.prepend e.value (1 + e.length) e.flags, more)
    else if c == '\r' then
      let n := if cs.head? == some '\n' then 1 else 0
      let (b, more) := templateBody (cs.drop n)
      (b.prepend ['\n'] (1 + n) {}, more)
    else
      let (b, more) := templateBody cs
      (b.prepend [c] 1 {}, more)
termination_by cs.length
decreasing_by all_goals simp_wf; try omega

def stringLexeme (quote : Char) (verbatim : Bool) (cs : List Char) : Lexeme :=
  let b := stringBody quote verbatim cs
  ⟨.stringLiteral, 1 + b.length, b.value, b.flags⟩

/-- The first piece of a template, after its backtick. -/
def templateStart (cs : List Char) : Lexeme :=
  let (b, more) := templateBody cs
  ⟨if more then .templateHead else .noSubstitutionTemplateLiteral, 1 + b.length, b.value, b.flags⟩

/-- A later piece of a template, after the brace that closes a substitution. -/
def templateRest (cs : List Char) : Lexeme :=
  let (b, more) := templateBody cs
  ⟨if more then .templateMiddle else .templateTail, 1 + b.length, b.value, b.flags⟩

end EstreeLint.Quoted
