import EstreeLint.Proofs.Token.Cooked
import EstreeLint.Text.Printed
import Mathlib.Data.List.Chain

/-!
Text in quotes is a string literal.

What stands in quotes is made of elements that a string may hold, so a scanner that reads it gives
back the text. The one exception is a null character before a digit, where the two together would
be read as an octal escape.
-/

namespace EstreeLint.Text

open Literal

variable {c : Char} {cs : List Char}

/-- What is read of a character in quotes. -/
def quotedElement (c : Char) : Element :=
  if c = '\x00' then .null
  else if c = '\t' then .escaped 't'
  else if c = '\r' then .escaped 'r'
  else if c = '\n' then .escaped 'n'
  else if c = '\\' ∨ c = '"' then .escaped c
  else if isShown c then .plain c
  else .point (Nat.toDigits 16 c.toNat)

lemma source_quotedElement (c : Char) : (quotedElement c).source = quotedChar c := by
  simp only [quotedElement, quotedChar, beq_iff_eq, Bool.or_eq_true]
  split_ifs <;> rfl

/-- No null character stands before a digit. -/
def NullsApart (cs : List Char) : Prop :=
  cs.IsChain fun c d => c = '\x00' → d ∉ decimalDigits

instance (cs : List Char) : Decidable (NullsApart cs) :=
  inferInstanceAs (Decidable (cs.IsChain _))

/-! ### Digits -/

lemma digit_digitChar {d : Nat} (h : d < 16) :
    digit (Nat.digitChar d) = d ∧ Nat.digitChar d ∈ hexDigits := by
  revert h
  revert d
  decide

lemma number_toDigits (n : Nat) :
    number 16 (Nat.toDigits 16 n) = n ∧ ∀ d ∈ Nat.toDigits 16 n, d ∈ hexDigits := by
  induction n using Nat.strongRecOn with
  | ind n ih =>
    rw [Nat.toDigits_eq_if (by decide)]
    split
    · next hlt =>
      obtain ⟨hdigit, hmem⟩ := digit_digitChar hlt
      exact ⟨by simpa [number] using hdigit, by simpa using hmem⟩
    · next hle =>
      obtain ⟨hnumber, hall⟩ := ih (n / 16) (by omega)
      obtain ⟨hdigit, hmem⟩ := digit_digitChar (Nat.mod_lt n (by decide : 0 < 16))
      rw [number] at hnumber
      refine ⟨?_, fun d hd => ?_⟩
      · rw [number, List.foldl_append, List.foldl_cons, List.foldl_nil, hnumber, hdigit]
        omega
      · rcases List.mem_append.1 hd with hd | hd
        · exact hall d hd
        · exact List.mem_singleton.1 hd ▸ hmem

/-! ### What is read -/

lemma quotedChar_cases (c : Char) :
    (∃ rest, quotedChar c = '\\' :: rest) ∨ quotedChar c = [c] := by
  unfold quotedChar
  split_ifs
  all_goals first
    | exact .inr rfl
    | exact .inl ⟨_, rfl⟩

/-- What is shown first of a text is a digit only if the text begins with it. -/
lemma head_of_decimal {d : Char} (hd : d ∈ decimalDigits)
    (h : (cs.flatMap quotedChar).head? = some d) : cs.head? = some d := by
  cases cs with
  | nil => cases h
  | cons c cs =>
    rw [List.flatMap_cons] at h
    rcases quotedChar_cases c with ⟨rest, hc⟩ | hc <;> rw [hc] at h
    · obtain rfl := Option.some.inj h
      exact absurd hd (by decide)
    · exact h

lemma quotedElement_fits (c : Char) (next : Option Char)
    (hnext : c = '\x00' → ∀ d ∈ decimalDigits, next ≠ some d) :
    (quotedElement c).Fits (.string '"') next ∧
      (∀ n, (quotedElement c).code? = some n → n < 0xD800 ∨ 0xDFFF < n) ∧
      (quotedElement c).units = encode c.toNat := by
  have hescaped {d : Char} (h : d ≠ 'u' ∧ d ≠ 'x' ∧ [d] ∉ lineBreaks ∧ d ∉ decimalDigits) :
      (Element.escaped d).Fits (.string '"') next :=
    ⟨h.1, h.2.1, h.2.2.1, fun hd => absurd hd h.2.2.2⟩
  unfold quotedElement
  split
  · next hc => exact ⟨hnext hc, by simp [Element.code?], by rw [hc]; rfl⟩
  split
  · next hc => exact ⟨hescaped (by decide), by simp [Element.code?], by rw [hc]; rfl⟩
  split
  · next hc => exact ⟨hescaped (by decide), by simp [Element.code?], by rw [hc]; rfl⟩
  next hreturn =>
  split
  · next hc => exact ⟨hescaped (by decide), by simp [Element.code?], by rw [hc]; rfl⟩
  next hfeed =>
  split
  · next hc =>
    rcases hc with rfl | rfl <;> exact ⟨hescaped (by decide), by simp [Element.code?], rfl⟩
  next hplain =>
  rw [not_or] at hplain
  split
  · exact ⟨⟨hplain.2, hplain.1, hfeed, hreturn⟩, by simp [Element.code?], rfl⟩
  -- the code of a character is that of no half of a pair
  · obtain ⟨hnumber, hdigits⟩ := number_toDigits c.toNat
    have hvalid : c.toNat < 0xD800 ∨ 0xDFFF < c.toNat ∧ c.toNat < 0x110000 := c.valid
    refine ⟨⟨Nat.toDigits_ne_nil, hdigits, by rw [hnumber]; omega⟩, fun n hn => ?_, ?_⟩
    · obtain rfl := Option.some.inj hn
      rw [hnumber]
      exact hvalid.imp_right And.left
    · rw [Element.units, hnumber]

/-- **A text in quotes stands for the text**, if no null character is before a digit. -/
theorem writes_quoted (h : NullsApart cs) : Writes '"' (cs.flatMap quotedChar) cs := by
  induction cs with
  | nil => exact ⟨[], .nil, .nil, rfl⟩
  | cons c cs ih =>
    obtain ⟨hhead, hrest⟩ := List.isChain_cons.1 h
    obtain ⟨es, hreads, hpaired, hunits⟩ := ih hrest
    obtain ⟨hfits, hcode, hvalue⟩ := quotedElement_fits c (cs.flatMap quotedChar).head?
      fun hc d hd hnext => hhead d (head_of_decimal hd hnext) hc hd
    refine ⟨quotedElement c :: es, ?_, .cons hcode hpaired, ?_⟩
    · rw [List.flatMap_cons, ← source_quotedElement]
      exact .cons hfits hreads
    · rw [encodeText_cons, ← hunits, ← hvalue]
      rfl

/-- **A scanner reads a text in quotes back.** -/
theorem scan_quoted {s : Scanner} {rest : List Char} (h : NullsApart cs)
    (hrest : s.cursor.rest = (quoted cs).toList ++ rest) :
    s.scan.kind = .stringLiteral ∧ s.scan.value = String.ofList cs ∧
      Clean s.scan.flags ∧ s.scan.cursor.rest = rest :=
  Scanner.scan_writes (.inl rfl) (writes_quoted h) (by simpa [quoted] using hrest)

end EstreeLint.Text
