import EstreeLint.Token.Lexeme
import EstreeLint.Token.Word

/-!
Numeric literals.
-/

namespace EstreeLint.Number

def isBinaryDigit (c : Char) : Bool := c == '0' || c == '1'

def isOctalDigit (c : Char) : Bool := '0' ≤ c && c ≤ '7'

/-- How many characters of digits come first, and whether separators stand among them. A
separator counts only before a digit. -/
def digitRun (isDigit : Char → Bool) : List Char → Nat × Bool
  | [] => (0, false)
  | c :: cs =>
    if isDigit c then
      let (n, sep) := digitRun isDigit cs
      (n + 1, sep)
    else if c == '_' && cs.head?.any isDigit then
      let (n, _) := digitRun isDigit cs
      (n + 1, true)
    else (0, false)

/-- The radix that a letter after a leading zero selects. -/
def radixOf? (c : Char) : Option ((Char → Bool) × TokenFlags) :=
  if c == 'x' || c == 'X' then some (Word.isHexDigit, { hexSpecifier := true })
  else if c == 'b' || c == 'B' then some (isBinaryDigit, { binarySpecifier := true })
  else if c == 'o' || c == 'O' then some (isOctalDigit, { octalSpecifier := true })
  else none

/-- Characters of an exponent with its mark, or none if no digit follows the mark and sign. -/
def exponent (cs : List Char) : Nat × Bool :=
  match cs with
  | [] => (0, false)
  | e :: cs =>
    if e == 'e' || e == 'E' then
      let sign := if cs.head? == some '+' || cs.head? == some '-' then 1 else 0
      let (n, sep) := digitRun Char.isDigit (cs.drop sign)
      if (cs.drop sign).head?.any Char.isDigit then (1 + sign + n, sep) else (0, false)
    else (0, false)

/-- Length and flags of a decimal number with optional fraction and exponent. -/
def decimal (cs : List Char) : Nat × TokenFlags :=
  let (whole, sep₁) := digitRun Char.isDigit cs
  let afterWhole := cs.drop whole
  let (fraction, sep₂) :=
    if afterWhole.head? == some '.' then
      let (n, sep) := digitRun Char.isDigit (afterWhole.drop 1)
      (n + 1, sep)
    else (0, false)
  let (power, sep₃) := exponent (afterWhole.drop fraction)
  (whole + fraction + power,
    { scientific := power != 0, containsSeparator := sep₁ || sep₂ || sep₃ })

/-- A zero followed by digits. It is octal if every character is an octal digit. -/
def legacyOctal (cs : List Char) : Nat × TokenFlags :=
  let (n, sep) := digitRun Char.isDigit cs
  (1 + n, { octal := (cs.take n).all isOctalDigit, containsSeparator := sep })

/-- Length and flags of a number without the mark of a big integer. -/
def magnitude : List Char → Nat × TokenFlags
  | '0' :: c :: cs =>
    match radixOf? c with
    | some (isDigit, flags) =>
      let (n, sep) := digitRun isDigit cs
      (2 + n, { flags with containsSeparator := sep })
    | none => if c.isDigit then legacyOctal (c :: cs) else decimal ('0' :: c :: cs)
  | cs => decimal cs

/-- Reads a number. A final `n` marks a big integer where there is no fraction, exponent or
legacy octal. -/
def lexeme (cs : List Char) : Lexeme :=
  let (n, flags) := magnitude cs
  let isBig := (cs.drop n).head? == some 'n' && !(cs.take n).contains '.'
    && !flags.scientific && !flags.octal
  if isBig then ⟨.bigIntLiteral, n + 1, cs.take (n + 1), flags⟩
  else ⟨.numericLiteral, n, cs.take n, flags⟩

end EstreeLint.Number
