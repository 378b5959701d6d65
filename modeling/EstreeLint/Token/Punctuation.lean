import EstreeLint.Token.Lexeme

/-!
Punctuation, read by looking at most two characters past its first.

A `>` is always read alone; `greaterRest` tells which longer operator it opens.
-/

namespace EstreeLint.Punctuation

/-- The kind and length of an operator whose first character may be doubled, and may take an
equals sign in either form. -/
def doubled (c : Char) (one two oneEquals twoEquals : TokenKind) : List Char → TokenKind × Nat
  | a :: b :: _ =>
    if a == c then (if b == '=' then (twoEquals, 3) else (two, 2))
    else if a == '=' then (oneEquals, 2)
    else (one, 1)
  | [a] => if a == c then (two, 2) else if a == '=' then (oneEquals, 2) else (one, 1)
  | [] => (one, 1)

/-- The kind and length of an operator that may take an equals sign. -/
def withEquals (one oneEquals : TokenKind) (cs : List Char) : TokenKind × Nat :=
  if cs.head? == some '=' then (oneEquals, 2) else (one, 1)

/-- The kind and length of an operator that may be doubled or take an equals sign. -/
def stepOrEquals (c : Char) (one two oneEquals : TokenKind) (cs : List Char) : TokenKind × Nat :=
  if cs.head? == some c then (two, 2) else withEquals one oneEquals cs

def afterExclamation : List Char → TokenKind × Nat
  | '=' :: '=' :: _ => (.exclamationEqualsEquals, 3)
  | '=' :: _ => (.exclamationEquals, 2)
  | _ => (.exclamation, 1)

def afterDot : List Char → TokenKind × Nat
  | '.' :: '.' :: _ => (.dotDotDot, 3)
  | _ => (.dot, 1)

def afterEquals : List Char → TokenKind × Nat
  | '=' :: '=' :: _ => (.equalsEqualsEquals, 3)
  | '=' :: _ => (.equalsEquals, 2)
  | '>' :: _ => (.equalsGreaterThan, 2)
  | _ => (.equals, 1)

/-- `?.` before a digit is a question mark and a number. -/
def afterQuestion : List Char → TokenKind × Nat
  | '.' :: cs => if cs.head?.any Char.isDigit then (.question, 1) else (.questionDot, 2)
  | '?' :: cs =>
    if cs.head? == some '=' then (.questionQuestionEquals, 3) else (.questionQuestion, 2)
  | _ => (.question, 1)

/-- `</` is one token where elements may occur, unless it opens a comment. -/
def afterLess (jsx : Bool) : List Char → TokenKind × Nat
  | '<' :: cs =>
    if cs.head? == some '=' then (.lessThanLessThanEquals, 3) else (.lessThanLessThan, 2)
  | '=' :: _ => (.lessThanEquals, 2)
  | '/' :: cs => if jsx && cs.head? != some '*' then (.lessThanSlash, 2) else (.lessThan, 1)
  | _ => (.lessThan, 1)

/-- The operator that a `>` and the characters after it make, and its length after the `>`. -/
def greaterRest : List Char → TokenKind × Nat
  | '>' :: '>' :: cs =>
    if cs.head? == some '=' then (.greaterThanGreaterThanGreaterThanEquals, 3)
    else (.greaterThanGreaterThanGreaterThan, 2)
  | '>' :: '=' :: _ => (.greaterThanGreaterThanEquals, 2)
  | '>' :: _ => (.greaterThanGreaterThan, 1)
  | '=' :: _ => (.greaterThanEquals, 1)
  | _ => (.greaterThan, 0)

/-- The punctuation that starts with `c`, given the characters after it. -/
def read? (jsx : Bool) (c : Char) (cs : List Char) : Option (TokenKind × Nat) :=
  match c with
  | '!' => some (afterExclamation cs)
  | '%' => some (withEquals .percent .percentEquals cs)
  | '&' => some (doubled '&' .ampersand .ampersandAmpersand .ampersandEquals
      .ampersandAmpersandEquals cs)
  | '(' => some (.openParen, 1)
  | ')' => some (.closeParen, 1)
  | '*' => some (doubled '*' .asterisk .asteriskAsterisk .asteriskEquals
      .asteriskAsteriskEquals cs)
  | '+' => some (stepOrEquals '+' .plus .plusPlus .plusEquals cs)
  | ',' => some (.comma, 1)
  | '-' => some (stepOrEquals '-' .minus .minusMinus .minusEquals cs)
  | '.' => some (afterDot cs)
  | '/' => some (withEquals .slash .slashEquals cs)
  | ':' => some (.colon, 1)
  | ';' => some (.semicolon, 1)
  | '<' => some (afterLess jsx cs)
  | '=' => some (afterEquals cs)
  | '>' => some (.greaterThan, 1)
  | '?' => some (afterQuestion cs)
  | '[' => some (.openBracket, 1)
  | ']' => some (.closeBracket, 1)
  | '^' => some (withEquals .caret .caretEquals cs)
  | '\x7b' => some (.openBrace, 1)
  | '|' => some (doubled '|' .bar .barBar .barEquals .barBarEquals cs)
  | '\x7d' => some (.closeBrace, 1)
  | '~' => some (.tilde, 1)
  | '@' => some (.at, 1)
  | '#' => some (.hash, 1)
  | _ => none

end EstreeLint.Punctuation
