/-!
The value of a numeric literal, as the bits of a double.
-/

namespace EstreeLint.Estree.Numeral

/-- The value of a digit in a radix of at most 16. -/
def digit? (radix : Nat) (c : Char) : Option Nat :=
  let d :=
    if c.isDigit then c.toNat - '0'.toNat
    else if 'a' ≤ c && c ≤ 'f' then c.toNat - 'a'.toNat + 10
    else radix
  if d < radix then some d else none

/-- Digits in a radix, summed up in doubles from the left. -/
def ofRadix? (radix : Nat) (cs : List Char) : Option Float :=
  cs.foldlM (fun sum c => (digit? radix c).map fun d => sum * radix.toFloat + d.toFloat) 0

def ofDigits (cs : List Char) : Nat := cs.foldl (fun n c => 10 * n + (c.toNat - '0'.toNat)) 0

/-- The power of ten in an exponent, with its mark. -/
def exponent? : List Char → Option Int
  | [] => some 0
  | 'e' :: '-' :: cs => if !cs.isEmpty && cs.all Char.isDigit then some (-ofDigits cs) else none
  | 'e' :: '+' :: cs => if !cs.isEmpty && cs.all Char.isDigit then some (ofDigits cs) else none
  | 'e' :: cs => if !cs.isEmpty && cs.all Char.isDigit then some (ofDigits cs) else none
  | _ => none

/-- The double nearest to `m` times a power of ten. Powers beyond the doubles are not computed. -/
def scaled (m : Nat) (power : Int) : Option Float :=
  if m = 0 then some 0
  else if 400 < (toString m).length + power then none
  else if (toString m).length + power < -400 then some 0
  else if 0 ≤ power then some (Float.ofScientific m false power.toNat)
  else some (Float.ofScientific m true (-power).toNat)

/-- A decimal number with an optional fraction and exponent. -/
def decimal? (cs : List Char) : Option Float := do
  let whole := cs.takeWhile Char.isDigit
  let rest := cs.dropWhile Char.isDigit
  let (fraction, rest) := match rest with
    | '.' :: rest => (rest.takeWhile Char.isDigit, rest.dropWhile Char.isDigit)
    | rest => ([], rest)
  if whole.isEmpty && fraction.isEmpty then none
  else scaled (ofDigits (whole ++ fraction)) ((← exponent? rest) - fraction.length)

/-- A number by its form: a radix mark, a zero before octal digits only, or decimal. -/
def value? : List Char → Option Float
  | '0' :: 'x' :: cs => ofRadix? 16 cs
  | '0' :: 'o' :: cs => ofRadix? 8 cs
  | '0' :: 'b' :: cs => ofRadix? 2 cs
  | '0' :: c :: cs =>
    if (c :: cs).all (fun c => '0' ≤ c && c ≤ '7') then ofRadix? 8 (c :: cs)
    else decimal? ('0' :: c :: cs)
  | cs => decimal? cs

/-- The bits of a literal's value; nothing where that is no finite number. Separators are
dropped, and letters count in either case. -/
def bits? (raw : List Char) : Option UInt64 :=
  match value? ((raw.filter (· != '_')).map Char.toLower) with
  | some x => if x.isFinite then some x.toBits else none
  | none => none

end EstreeLint.Estree.Numeral
