import EstreeLint.Text.Basic

/-!
Character references in the text between tags.

A reference is an ampersand, a name or number of at most ten bytes, and a semicolon. What is no
reference stands for itself.
-/

namespace EstreeLint.Estree.Entity

/-- The characters that have a name. -/
def named : List (String × Char) := [
  ("amp", '&'), ("lt", '<'), ("gt", '>'), ("quot", '"'), ("apos", '\x27'), ("nbsp", '\u00a0'),
  ("copy", '\u00a9'), ("reg", '\u00ae'), ("trade", '\u2122'), ("hellip", '\u2026'),
  ("mdash", '\u2014'), ("ndash", '\u2013'), ("lsquo", '\u2018'), ("rsquo", '\u2019'),
  ("ldquo", '\u201c'), ("rdquo", '\u201d'), ("middot", '\u00b7'), ("times", '\u00d7'),
  ("bull", '\u2022')]

/-- The value of a digit in a radix of at most 16, in either case. -/
def digit? (radix : Nat) (c : Char) : Option Nat :=
  let d :=
    if c.isDigit then c.toNat - '0'.toNat
    else if 'a' ≤ c && c ≤ 'f' then c.toNat - 'a'.toNat + 10
    else if 'A' ≤ c && c ≤ 'F' then c.toNat - 'A'.toNat + 10
    else radix
  if d < radix then some d else none

/-- One or more digits. -/
def digits? (radix : Nat) (cs : List Char) : Option Nat :=
  if cs.isEmpty then none
  else cs.foldlM (fun n c => (digit? radix c).map (radix * n + ·)) 0

/-- A number, which a plus sign may precede. -/
def number? (radix : Nat) : List Char → Option Nat
  | '+' :: cs => digits? radix cs
  | cs => digits? radix cs

/-- The character with a code, if it is one. -/
def ofCode? (n : Nat) : Option Char :=
  if n.isValidChar then some (Char.ofNat n) else none

/-- The character that a name or number stands for. -/
def lookup? (name : List Char) : Option Char :=
  match name with
  | '#' :: 'x' :: cs => (number? 16 cs).bind ofCode?
  | '#' :: 'X' :: cs => (number? 16 cs).bind ofCode?
  | '#' :: cs => (number? 10 cs).bind ofCode?
  | cs => named.lookup (String.ofList cs)

/-- The character that a reference stands for, given what follows its ampersand, and how many
characters the reference takes with its semicolon. -/
def read? (cs : List Char) : Option (Char × Nat) :=
  let name := cs.takeWhile (· != ';')
  if name.length < cs.length && 0 < Text.bytes name && Text.bytes name ≤ 10 then
    (lookup? name).map fun c => (c, name.length + 1)
  else none

/-- A text with its references replaced. -/
def decode (cs : List Char) : List Char :=
  match cs with
  | [] => []
  | c :: cs =>
    if c == '&' then
      match read? cs with
      | some (d, n) => d :: decode (cs.drop n)
      | none => c :: decode cs
    else c :: decode cs
termination_by cs.length
decreasing_by all_goals simp_wf; try omega

end EstreeLint.Estree.Entity
