import EstreeLint.Token.Scanner
import Mathlib.Tactic.Common

/-!
What the scanner reads off the front of a text: a token is not empty, and its kind is neither
trivia nor text between tags. A name that begins with an escape is not empty because the escape
is a valid one.
-/

namespace EstreeLint

/-- Each `\u` of a text begins an escape of a character that a name may have. -/
def ValidEscapes (text : Source) : Prop :=
  ∀ cs, '\\' :: 'u' :: cs <:+ text →
    ∃ c, (Word.unicodeEscape cs).value = some c ∧ Text.isIdentifierPart c = true

lemma ValidEscapes.of_not_mem {text : Source} (h : '\\' ∉ text) : ValidEscapes text :=
  fun _ hs => absurd (hs.subset (by simp)) h

namespace TokenKind

/-- Text between the tags of an element. -/
def isElementText (k : TokenKind) : Bool := k == .jsxText || k == .jsxTextAllWhiteSpaces

/-- A kind that is read without regard to the place. -/
def isPlain (k : TokenKind) : Bool :=
  !k.isTrivia && !k.isElementText && k != .endOfFile

lemma isPlain_of_punctuation {k : TokenKind} (h : k.isPunctuation = true) : k.isPlain = true := by
  revert h
  cases k <;> decide

lemma isPlain_of_word {k : TokenKind} (h : k.isIdentifierOrKeyword = true) :
    k.isPlain = true ∧ k ≠ .closeBrace := by
  revert h
  cases k <;> decide

/-- A word is a keyword or an identifier. -/
lemma isIdentifierOrKeyword_ofWord (w : String) : (ofWord w).isIdentifierOrKeyword = true := by
  have hall : ∀ entry ∈ keywords, entry.2.isIdentifierOrKeyword = true := by decide
  unfold ofWord ofWord?
  cases h : keywords.lookup w with
  | none => rfl
  | some k =>
    obtain ⟨l₁, l₂, e, -⟩ := List.lookup_eq_some_iff.1 h
    exact hall (w, k) (by rw [e]; simp)

end TokenKind

/-! ### Punctuation -/

namespace Punctuation

/-- Punctuation other than a closing brace, of one character at least. -/
def Proper (x : TokenKind × Nat) : Prop :=
  x.1.isPunctuation = true ∧ x.1 ≠ .closeBrace ∧ 0 < x.2

instance (x : TokenKind × Nat) : Decidable (Proper x) := by
  unfold Proper
  infer_instance

lemma proper_doubled {c : Char} {one two oneEquals twoEquals : TokenKind}
    (h : Proper (one, 1) ∧ Proper (two, 2) ∧ Proper (oneEquals, 2) ∧ Proper (twoEquals, 3))
    (cs : List Char) : Proper (doubled c one two oneEquals twoEquals cs) := by
  obtain ⟨h₁, h₂, h₃, h₄⟩ := h
  unfold doubled
  split <;> (try split) <;> (try split) <;> assumption

lemma proper_withEquals {one oneEquals : TokenKind} (h : Proper (one, 1) ∧ Proper (oneEquals, 2))
    (cs : List Char) : Proper (withEquals one oneEquals cs) := by
  unfold withEquals
  split
  · exact h.2
  · exact h.1

lemma proper_stepOrEquals {c : Char} {one two oneEquals : TokenKind}
    (h : Proper (two, 2) ∧ Proper (one, 1) ∧ Proper (oneEquals, 2)) (cs : List Char) :
    Proper (stepOrEquals c one two oneEquals cs) := by
  unfold stepOrEquals
  split
  · exact h.1
  · exact proper_withEquals h.2 cs

lemma proper_afterExclamation (cs : List Char) : Proper (afterExclamation cs) := by
  unfold afterExclamation
  split <;> decide

lemma proper_afterDot (cs : List Char) : Proper (afterDot cs) := by
  unfold afterDot
  split <;> decide

lemma proper_afterEquals (cs : List Char) : Proper (afterEquals cs) := by
  unfold afterEquals
  split <;> decide

lemma proper_afterQuestion (cs : List Char) : Proper (afterQuestion cs) := by
  unfold afterQuestion
  split <;> (try split) <;> decide

lemma proper_afterLess (jsx : Bool) (cs : List Char) : Proper (afterLess jsx cs) := by
  unfold afterLess
  split <;> (try split) <;> decide

/-- What is read as punctuation is a closing brace or proper. -/
lemma read?_proper {jsx : Bool} {c : Char} {cs : List Char} {x : TokenKind × Nat}
    (h : read? jsx c cs = some x) : x = (.closeBrace, 1) ∧ c = '\x7d' ∨ Proper x := by
  unfold read? at h
  split at h
  case h_23 => exact .inl ⟨(Option.some.inj h).symm, rfl⟩
  all_goals first | (cases h; done) | refine .inr (Option.some.inj h ▸ ?_)
  all_goals first
    | decide
    | exact proper_afterExclamation cs
    | exact proper_afterDot cs
    | exact proper_afterEquals cs
    | exact proper_afterQuestion cs
    | exact proper_afterLess jsx cs
    | exact proper_withEquals (by decide) cs
    | exact proper_stepOrEquals (by decide) cs
    | exact proper_doubled (by decide) cs

end Punctuation

/-! ### Numbers and words -/

namespace Number

lemma digitRun_pos {isDigit : Char → Bool} {c : Char} (cs : List Char) (h : isDigit c = true) :
    0 < (digitRun isDigit (c :: cs)).1 := by
  simp [digitRun, h]

lemma decimal_pos {c : Char} {cs : List Char}
    (h : c.isDigit = true ∨ c = '.' ∧ cs.head?.any Char.isDigit = true) :
    0 < (decimal (c :: cs)).1 := by
  by_cases hd : c.isDigit = true
  · have := digitRun_pos cs hd
    simp only [decimal]
    omega
  · obtain ⟨rfl, -⟩ := h.resolve_left hd
    have hrun : (digitRun Char.isDigit ('.' :: cs)).1 = 0 := by simp [digitRun, hd]
    simp only [decimal, hrun, List.drop_zero, List.head?_cons, beq_self_eq_true, if_true]
    omega

lemma magnitude_pos {c : Char} {cs : List Char}
    (h : c.isDigit = true ∨ c = '.' ∧ cs.head?.any Char.isDigit = true) :
    0 < (magnitude (c :: cs)).1 := by
  unfold magnitude
  split
  · next d ds heq =>
    obtain ⟨rfl, rfl⟩ := List.cons.inj heq
    split
    · simp only
      omega
    · split
      · simp only [legacyOctal]
        omega
      · exact decimal_pos (.inl rfl)
  · exact decimal_pos h

end Number

namespace Word

lemma parts_pos_of_part {c : Char} {cs : List Char} (h : Text.isIdentifierPart c = true) :
    0 < (parts (c :: cs)).length := by
  unfold parts
  simp only [h, if_true, Parts.cons]
  omega

lemma parts_pos_of_escape {c : Char} {cs : List Char} (h : (unicodeEscape cs).value = some c)
    (hc : Text.isIdentifierPart c = true) : 0 < (parts ('\\' :: 'u' :: cs)).length := by
  have hb : Text.isIdentifierPart '\\' = false := by decide +kernel
  unfold parts
  simp only [hb, Bool.false_eq_true, if_false, beq_self_eq_true, if_true, h, hc, Parts.cons]
  omega

end Word

lemma Text.isIdentifierPart_of_start {c : Char} (h : Text.isIdentifierStart c = true) :
    Text.isIdentifierPart c = true := by
  simp only [Text.isIdentifierStart, Bool.or_eq_true] at h
  simp only [Text.isIdentifierPart, Bool.or_eq_true]
  tauto

namespace Lexeme

/-- A token that starts with `c`. -/
structure IsToken (c : Char) (l : Lexeme) : Prop where
  plain : l.kind.isPlain = true
  pos : 0 < l.length
  brace : l.kind = .closeBrace → c = '\x7d'

lemma isToken_of_kind {c : Char} {l : Lexeme} {k : TokenKind} (hk : l.kind = k)
    (h : k.isPlain = true ∧ k ≠ .closeBrace) (hl : 0 < l.length) : IsToken c l :=
  ⟨hk ▸ h.1, hl, fun hk' => absurd (hk.symm.trans hk') h.2⟩

lemma number_isToken {c : Char} {cs : List Char}
    (h : c.isDigit = true ∨ c = '.' ∧ cs.head?.any Char.isDigit = true) :
    IsToken c (Number.lexeme (c :: cs)) := by
  have := Number.magnitude_pos h
  simp only [Number.lexeme]
  split
  · exact isToken_of_kind (k := .bigIntLiteral) rfl (by decide) (Nat.succ_pos _)
  · exact isToken_of_kind (k := .numericLiteral) rfl (by decide) this

lemma word_isToken {c : Char} {cs : List Char} (h : 0 < (Word.parts (c :: cs)).length) :
    IsToken c (Word.lexeme (c :: cs)) := by
  refine isToken_of_kind rfl (TokenKind.isPlain_of_word ?_) h
  simp only [Word.lexeme]
  split
  · rfl
  · exact TokenKind.isIdentifierOrKeyword_ofWord _

/-- **A token is not empty and of a plain kind.** -/
lemma token_isToken (v : Variant) {c : Char} {cs : List Char}
    (he : ∀ ds, c :: cs = '\\' :: 'u' :: ds →
      ∃ d, (Word.unicodeEscape ds).value = some d ∧ Text.isIdentifierPart d = true) :
    IsToken c (token v c cs) := by
  unfold token
  split
  · refine isToken_of_kind (k := .stringLiteral) rfl (by decide) ?_
    simp only [Quoted.stringLexeme]
    omega
  split
  · simp only [Quoted.templateStart]
    refine isToken_of_kind rfl ?_ (by dsimp only; omega)
    dsimp only
    split <;> decide
  split
  · next h => exact number_isToken (by simpa using h)
  split
  · refine isToken_of_kind (k := .privateIdentifier) rfl (by decide) ?_
    simp only [Word.privateName]
    omega
  split
  · next kind length h =>
    obtain ⟨hb, rfl⟩ | h := Punctuation.read?_proper h
    · obtain ⟨rfl, rfl⟩ := Prod.mk.inj hb
      exact ⟨by decide, by decide, fun _ => rfl⟩
    · exact isToken_of_kind rfl ⟨TokenKind.isPlain_of_punctuation h.1, h.2.1⟩ h.2.2
  split
  · next h =>
    apply word_isToken
    rcases Bool.or_eq_true_iff.1 h with h | h
    · exact Word.parts_pos_of_part (Text.isIdentifierPart_of_start h)
    · simp only [Bool.and_eq_true, beq_iff_eq] at h
      obtain ⟨rfl, hu⟩ := h
      obtain ⟨ds, rfl⟩ := List.head?_eq_some_iff.1 hu
      obtain ⟨d, hd, hp⟩ := he ds rfl
      exact Word.parts_pos_of_escape hd hp
  · exact isToken_of_kind rfl (by decide) (by decide)

end Lexeme

end EstreeLint
