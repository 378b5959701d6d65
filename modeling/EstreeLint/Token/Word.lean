import EstreeLint.Token.Lexeme
import EstreeLint.Text.Letters

/-!
Words: identifiers, keywords and private names, with their `\u` escapes.
-/

namespace EstreeLint.Word

/-- The value of a hexadecimal digit. -/
def hexDigit? (c : Char) : Option Nat :=
  if c.isDigit then some (c.toNat - '0'.toNat)
  else if 'a' ≤ c ∧ c ≤ 'f' then some (c.toNat - 'a'.toNat + 10)
  else if 'A' ≤ c ∧ c ≤ 'F' then some (c.toNat - 'A'.toNat + 10)
  else none

def isHexDigit (c : Char) : Bool := (hexDigit? c).isSome

/-- The number that a run of hexadecimal digits writes. -/
def hexNumber (cs : List Char) : Nat :=
  cs.foldl (fun n c => 16 * n + (hexDigit? c).getD 0) 0

/-- The number written by exactly `count` hexadecimal digits at the front. -/
def hexDigits? (count : Nat) (cs : List Char) : Option Nat :=
  let digits := cs.take count
  if digits.length = count ∧ digits.all isHexDigit then some (hexNumber digits) else none

/-- The character with a code, unless the code is a surrogate or out of range. -/
def scalar? (n : Nat) : Option Char := if n.isValidChar then some (Char.ofNat n) else none

/-- What follows the `\u` of an escape. -/
structure UnicodeEscape where
  value : Option Char
  /-- Characters read after the `\u`. -/
  length : Nat
  /-- It is written in braces. -/
  extended : Bool
deriving DecidableEq, Repr

def isHighSurrogate (n : Nat) : Bool := 0xD800 ≤ n && n < 0xDC00

def isLowSurrogate (n : Nat) : Bool := 0xDC00 ≤ n && n < 0xE000

/-- The low half of a pair, if an escape for one comes next. -/
def lowSurrogate? : List Char → Option Nat
  | '\\' :: 'u' :: cs => (hexDigits? 4 cs).filter isLowSurrogate
  | _ => none

/-- Reads an escape in braces. Its number must be below 2^32 to be read at all, and must be a
character to have a value. -/
def bracedEscape (cs : List Char) : UnicodeEscape :=
  let digits := cs.takeWhile isHexDigit
  if digits.isEmpty || (cs.drop digits.length).head? != some '\x7d'
      || UInt32.size ≤ hexNumber digits then ⟨none, 0, false⟩
  else ⟨scalar? (hexNumber digits), digits.length + 2, true⟩

/-- Reads what follows `\u`: four digits, two such escapes for the halves of a surrogate pair,
or digits in braces. A half on its own reads as U+FFFD. -/
def unicodeEscape : List Char → UnicodeEscape
  | '\x7b' :: cs => bracedEscape cs
  | cs =>
    match hexDigits? 4 cs with
    | none => ⟨none, 0, false⟩
    | some code =>
      match if isHighSurrogate code then lowSurrogate? (cs.drop 4) else none with
      | some low => ⟨scalar? (0x10000 + (code - 0xD800) * 0x400 + (low - 0xDC00)), 10, false⟩
      | none => ⟨some ((scalar? code).getD '\uFFFD'), 4, false⟩

/-- The characters of a word, and how many characters of source they take. -/
structure Parts where
  value : List Char := []
  length : Nat := 0
  flags : TokenFlags := {}
deriving DecidableEq, Repr

/-- Puts a character that took `length` characters of source in front. -/
def Parts.cons (c : Char) (length : Nat) (flags : TokenFlags) (p : Parts) : Parts :=
  ⟨c :: p.value, length + p.length, flags ∪ p.flags⟩

/-- Reads identifier characters and escapes of such, as many as there are. -/
def parts (cs : List Char) : Parts :=
  match cs with
  | [] => {}
  | c :: cs =>
    if Text.isIdentifierPart c then (parts cs).cons c 1 {}
    else if c == '\\' then
      match cs with
      | 'u' :: cs =>
        let e := unicodeEscape cs
        match e.value with
        | some d =>
          if Text.isIdentifierPart d then
            (parts (cs.drop e.length)).cons d (2 + e.length)
              { unicodeEscape := true, extendedUnicodeEscape := e.extended }
          else { flags := { extendedUnicodeEscape := e.extended } }
        | none => { flags := { extendedUnicodeEscape := e.extended } }
      | _ => {}
    else {}
termination_by cs.length
decreasing_by all_goals simp_wf; try omega

/-- A word without escapes may be a keyword; one with an escape is an identifier. -/
def lexeme (cs : List Char) : Lexeme :=
  let p := parts cs
  let kind := if p.flags.unicodeEscape then .identifier else .ofWord (String.ofList p.value)
  ⟨kind, p.length, p.value, p.flags⟩

/-- A private name, given the characters after its `#`. -/
def privateName (cs : List Char) : Lexeme :=
  let p := parts cs
  ⟨.privateIdentifier, 1 + p.length, '#' :: p.value, p.flags⟩

end EstreeLint.Word
