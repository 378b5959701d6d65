import EstreeLint.Token.Kind

/-!
What a scan reads off the front of a text: a kind, a number of characters, a value, and flags.
-/

namespace EstreeLint

/-- Facts about a token besides its kind and value. -/
structure TokenFlags where
  precedingLineBreak : Bool := false
  unterminated : Bool := false
  extendedUnicodeEscape : Bool := false
  scientific : Bool := false
  octal : Bool := false
  hexSpecifier : Bool := false
  binarySpecifier : Bool := false
  octalSpecifier : Bool := false
  containsSeparator : Bool := false
  unicodeEscape : Bool := false
  containsInvalidEscape : Bool := false
deriving DecidableEq, Repr

namespace TokenFlags

/-- The flags that hold of either. -/
def union (a b : TokenFlags) : TokenFlags where
  precedingLineBreak := a.precedingLineBreak || b.precedingLineBreak
  unterminated := a.unterminated || b.unterminated
  extendedUnicodeEscape := a.extendedUnicodeEscape || b.extendedUnicodeEscape
  scientific := a.scientific || b.scientific
  octal := a.octal || b.octal
  hexSpecifier := a.hexSpecifier || b.hexSpecifier
  binarySpecifier := a.binarySpecifier || b.binarySpecifier
  octalSpecifier := a.octalSpecifier || b.octalSpecifier
  containsSeparator := a.containsSeparator || b.containsSeparator
  unicodeEscape := a.unicodeEscape || b.unicodeEscape
  containsInvalidEscape := a.containsInvalidEscape || b.containsInvalidEscape

instance : Union TokenFlags := ⟨union⟩

/-- The flags as a number, one bit each. -/
def bits (f : TokenFlags) : Nat :=
  f.precedingLineBreak.toNat + 2 * f.unterminated.toNat + 4 * f.extendedUnicodeEscape.toNat
    + 8 * f.scientific.toNat + 16 * f.octal.toNat + 32 * f.hexSpecifier.toNat
    + 64 * f.binarySpecifier.toNat + 128 * f.octalSpecifier.toNat
    + 256 * f.containsSeparator.toNat + 512 * f.unicodeEscape.toNat
    + 1024 * f.containsInvalidEscape.toNat

end TokenFlags

/-- One token or piece of trivia at the front of a text. -/
structure Lexeme where
  kind : TokenKind
  /-- How many characters it takes. -/
  length : Nat
  value : List Char := []
  flags : TokenFlags := {}
deriving DecidableEq, Repr

end EstreeLint
