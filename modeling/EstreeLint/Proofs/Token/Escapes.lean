import EstreeLint.Token.Quoted
import Mathlib.Tactic.Common

/-!
What the language says that a string literal or a piece of a template stands for.

The text between the delimiters is a row of elements: characters that stand for themselves, line
breaks, and escapes. An element has a source, a value in units of UTF-16, and a condition on the
character that may follow it, by which it is told from a longer one. Legacy octal escapes are for
strings, and a carriage return is an element of a template only, where it reads as a line feed.
-/

namespace EstreeLint.Literal

/-- What a text between delimiters belongs to: a string with its quote, or a template. -/
inductive Style where
  | string (quote : Char)
  | template
deriving DecidableEq, Repr

/-! ### UTF-16 -/

/-- The units of a code point. -/
def encode (n : Nat) : List Nat :=
  if n < 0x10000 then [n] else [0xD800 + (n - 0x10000) / 0x400, 0xDC00 + (n - 0x10000) % 0x400]

/-- The units of a text. -/
def encodeText (cs : List Char) : List Nat := cs.flatMap fun c => encode c.toNat

@[simp] lemma encodeText_nil : encodeText [] = [] := rfl

@[simp] lemma encodeText_cons (c : Char) (cs : List Char) :
    encodeText (c :: cs) = encode c.toNat ++ encodeText cs := rfl

@[simp] lemma encodeText_append (cs ds : List Char) :
    encodeText (cs ++ ds) = encodeText cs ++ encodeText ds := List.flatMap_append

lemma encode_of_lt {n : Nat} (h : n < 0x10000) : encode n = [n] := if_pos h

/-- The first units of two characters agree only if the characters do: half of a pair is no
character. -/
lemma encode_append_inj {c d : Char} {us vs : List Nat}
    (h : encode c.toNat ++ us = encode d.toNat ++ vs) : c = d ∧ us = vs := by
  have hc : c.toNat < 0xD800 ∨ 0xDFFF < c.toNat ∧ c.toNat < 0x110000 := c.valid
  have hd : d.toNat < 0xD800 ∨ 0xDFFF < d.toNat ∧ d.toNat < 0x110000 := d.valid
  unfold encode at h
  split at h <;> split at h <;>
    simp only [List.cons_append, List.nil_append, List.cons.injEq] at h
  · exact ⟨Char.toNat_inj.1 h.1, h.2⟩
  · omega
  · omega
  · exact ⟨Char.toNat_inj.1 (by omega), h.2.2⟩

/-- A text of whole characters is known by its units. -/
lemma encodeText_inj {cs ds : List Char} (h : encodeText cs = encodeText ds) : cs = ds := by
  have hne (c : Char) : encode c.toNat ≠ [] := by
    unfold encode
    split <;> simp
  induction cs generalizing ds with
  | nil =>
    cases ds with
    | nil => rfl
    | cons d ds => exact absurd (List.append_eq_nil_iff.1 h.symm).1 (hne d)
  | cons c cs ih =>
    cases ds with
    | nil => exact absurd (List.append_eq_nil_iff.1 h).1 (hne c)
    | cons d ds =>
      obtain ⟨rfl, hrest⟩ := encode_append_inj h
      rw [ih hrest]

/-! ### Digits -/

def octalDigits : List Char := ['0', '1', '2', '3', '4', '5', '6', '7']

def decimalDigits : List Char := octalDigits ++ ['8', '9']

def hexDigits : List Char :=
  decimalDigits ++ ['a', 'b', 'c', 'd', 'e', 'f'] ++ ['A', 'B', 'C', 'D', 'E', 'F']

/-- What a digit counts, in any base up to sixteen. -/
def digit (c : Char) : Nat :=
  (decimalDigits ++ ['a', 'b', 'c', 'd', 'e', 'f']).idxOf c.toLower

def number (base : Nat) (ds : List Char) : Nat := ds.foldl (fun n d => base * n + digit d) 0

/-! ### Elements -/

inductive Element where
  /-- A character that stands for itself. -/
  | plain (c : Char)
  /-- A carriage return, with the line feed behind it if there is one. -/
  | carriageReturn (feed : Bool)
  /-- A backslash before one character. -/
  | escaped (c : Char)
  /-- The escape of the null character. -/
  | null
  | octal (ds : List Char)
  | hex (ds : List Char)
  /-- A `\u` with the four digits of a unit of UTF-16. -/
  | unit (ds : List Char)
  /-- A `\u` with the digits of a code point in braces. -/
  | point (ds : List Char)
  /-- A backslash before a line break. -/
  | continuation (lineBreak : List Char)
deriving DecidableEq, Repr

/-- The line breaks of the language. -/
def lineBreaks : List (List Char) := [['\n'], ['\r'], ['\u2028'], ['\u2029'], ['\r', '\n']]

/-- What a backslash makes of a single character. -/
def escapedValue : Char → Char
  | 'b' => '\x08'
  | 't' => '\t'
  | 'n' => '\n'
  | 'v' => '\x0B'
  | 'f' => '\x0C'
  | 'r' => '\r'
  | c => c

/-- The octal escapes, each with the character that may come next. -/
inductive LegacyOctal : List Char → Option Char → Prop
  | zero {d : Char} (hd : d ∈ ['8', '9']) : LegacyOctal ['0'] (some d)
  | one {a : Char} {next : Option Char} (ha : a ∈ ['1', '2', '3', '4', '5', '6', '7'])
      (hnext : ∀ d ∈ octalDigits, next ≠ some d) : LegacyOctal [a] next
  | low {a b : Char} {next : Option Char} (ha : a ∈ ['0', '1', '2', '3']) (hb : b ∈ octalDigits)
      (hnext : ∀ d ∈ octalDigits, next ≠ some d) : LegacyOctal [a, b] next
  | high {a b : Char} {next : Option Char} (ha : a ∈ ['4', '5', '6', '7']) (hb : b ∈ octalDigits) :
      LegacyOctal [a, b] next
  | three {a b c : Char} {next : Option Char} (ha : a ∈ ['0', '1', '2', '3']) (hb : b ∈ octalDigits)
      (hc : c ∈ octalDigits) : LegacyOctal [a, b, c] next

namespace Element

def source : Element → List Char
  | plain c => [c]
  | carriageReturn feed => if feed then ['\r', '\n'] else ['\r']
  | escaped c => ['\\', c]
  | null => ['\\', '0']
  | octal ds => '\\' :: ds
  | hex ds => '\\' :: 'x' :: ds
  | unit ds => '\\' :: 'u' :: ds
  | point ds => '\\' :: 'u' :: '\x7b' :: (ds ++ ['\x7d'])
  | continuation lineBreak => '\\' :: lineBreak

/-- What an element stands for, in units of UTF-16. -/
def units : Element → List Nat
  | plain c => encode c.toNat
  | carriageReturn _ => ['\n'.toNat]
  | escaped c => encode (escapedValue c).toNat
  | null => [0]
  | octal ds => [number 8 ds]
  | hex ds => [number 16 ds]
  | unit ds => [number 16 ds]
  | point ds => encode (number 16 ds)
  | continuation _ => []

/-- An element may stand in a literal before the character `next`, if there is one. -/
def Fits (style : Style) (next : Option Char) : Element → Prop
  | plain c =>
    match style with
    | .string quote => c ≠ quote ∧ c ≠ '\\' ∧ c ≠ '\n' ∧ c ≠ '\r'
    | .template => c ≠ '\x60' ∧ c ≠ '\\' ∧ c ≠ '\r' ∧ (c = '$' → next ≠ some '\x7b')
  | carriageReturn feed => style = .template ∧ (feed = false → next ≠ some '\n')
  | escaped c =>
    c ≠ 'u' ∧ c ≠ 'x' ∧ [c] ∉ lineBreaks ∧
      (c ∈ decimalDigits → style ≠ .template ∧ c ∈ ['8', '9'])
  | null => ∀ d ∈ decimalDigits, next ≠ some d
  | octal ds => style ≠ .template ∧ LegacyOctal ds next
  | hex ds => ds.length = 2 ∧ ∀ d ∈ ds, d ∈ hexDigits
  | unit ds => ds.length = 4 ∧ ∀ d ∈ ds, d ∈ hexDigits
  | point ds => ds ≠ [] ∧ (∀ d ∈ ds, d ∈ hexDigits) ∧ number 16 ds ≤ 0x10FFFF
  | continuation lineBreak => lineBreak ∈ lineBreaks ∧ (lineBreak = ['\r'] → next ≠ some '\n')

/-- The code point that a `\u` writes. -/
def code? : Element → Option Nat
  | unit ds => some (number 16 ds)
  | point ds => some (number 16 ds)
  | _ => none

end Element

/-- A text reads as a row of elements. -/
inductive Reads (style : Style) : List Char → List Element → Prop
  | nil : Reads style [] []
  | cons {e : Element} {es : List Element} {cs : List Char} (fits : e.Fits style cs.head?)
      (rest : Reads style cs es) : Reads style (e.source ++ cs) (e :: es)

/-- Surrogates are written only as the two halves of a pair, one right behind the other. -/
inductive Paired : List Element → Prop
  | nil : Paired []
  | cons {e : Element} {es : List Element}
      (code : ∀ n, e.code? = some n → n < 0xD800 ∨ 0xDFFF < n) (rest : Paired es) :
      Paired (e :: es)
  | pair {high low : List Char} {es : List Element}
      (hhigh : 0xD800 ≤ number 16 high ∧ number 16 high < 0xDC00)
      (hlow : 0xDC00 ≤ number 16 low ∧ number 16 low < 0xE000) (rest : Paired es) :
      Paired (.unit high :: .unit low :: es)

/-- The value of a row of elements. -/
def unitsOf (es : List Element) : List Nat := es.flatMap Element.units

/-- A text is well formed, and a value is what it stands for. -/
structure Value (style : Style) (content value : List Char) : Prop where
  readable : ∃ es, Reads style content es
  agrees : ∀ es, Reads style content es → Paired es → encodeText value = unitsOf es

end EstreeLint.Literal
