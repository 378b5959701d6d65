import EstreeLint.Proofs.Token.Cut

/-!
A keyword that is read from the text, not read again, takes two bytes of it at least.
-/

namespace EstreeLint

lemma Text.length_le_bytes (cs : List Char) : cs.length ≤ Text.bytes cs := by
  induction cs with
  | nil => simp
  | cons c cs ih =>
    have := c.utf8Size_pos
    rw [Text.bytes_cons, List.length_cons]
    omega

namespace Word

/-- Every character of a word comes from one of the text at least. -/
lemma length_value_le (cs : List Char) :
    (parts cs).value.length ≤ (cs.take (parts cs).length).length := by
  fun_induction parts cs with
  | case2 c cs h ih =>
    simp only [Parts.cons, List.length_cons, List.length_take] at ih ⊢
    omega
  | case3 c hc hesc cs e d hd hpart ih =>
    simp only [Parts.cons, List.length_cons, List.length_take, List.length_drop] at ih ⊢
    omega
  | _ => simp

lemma two_le_of_keyword {w : List Char}
    (h : (TokenKind.ofWord (String.ofList w)).isKeyword = true) :
    2 ≤ w.length := by
  have hall : ∀ entry ∈ TokenKind.keywords, 2 ≤ entry.1.toList.length := by decide
  unfold TokenKind.ofWord TokenKind.ofWord? at h
  cases hk : TokenKind.keywords.lookup (String.ofList w) with
  | none =>
    rw [hk] at h
    cases h
  | some k =>
    obtain ⟨l₁, l₂, hl, -⟩ := List.lookup_eq_some_iff.1 hk
    have hmem := hall (String.ofList w, k) (by rw [hl]; simp)
    simpa using hmem

end Word

namespace TokenKind

lemma not_isKeyword_of_punctuation {k : TokenKind} (h : k.isPunctuation = true) :
    k.isKeyword = false := by
  revert h
  cases k <;> decide

lemma not_isTrivia_of_keyword {k : TokenKind} (h : k.isKeyword = true) : k.isTrivia = false := by
  revert h
  cases k <;> decide

end TokenKind

namespace Lexeme

/-- **A token that is a keyword takes two characters of the text at least.** -/
lemma two_le_token (v : Variant) (c : Char) (cs : List Char)
    (h : (token v c cs).kind.isKeyword = true) :
    2 ≤ ((c :: cs).take (token v c cs).length).length := by
  have hplain {l : Lexeme} {k : TokenKind} (hl : l.kind = k) (hk : k.isKeyword = false)
      (h : l.kind.isKeyword = true) : 2 ≤ ((c :: cs).take l.length).length := by
    rw [hl, hk] at h
    cases h
  revert h
  unfold token
  split
  · exact hplain rfl rfl
  split
  · refine hplain rfl ?_
    simp only [Quoted.templateStart]
    split <;> rfl
  split
  · refine hplain rfl ?_
    simp only [Number.lexeme]
    split <;> rfl
  split
  · exact hplain rfl rfl
  split
  · next k n hread =>
    have hpunctuation : k.isPunctuation = true := by
      obtain ⟨h, -⟩ | h := Punctuation.read?_proper hread
      · rw [(Prod.mk.inj h).1]
        rfl
      · exact h.1
    exact hplain rfl (TokenKind.not_isKeyword_of_punctuation hpunctuation)
  split
  · intro h
    simp only [Word.lexeme] at h ⊢
    split at h
    · cases h
    · exact Nat.le_trans (Word.two_le_of_keyword h) (Word.length_value_le (c :: cs))
  · exact hplain rfl rfl

end Lexeme

namespace Scanner

variable {σ : Scanner}

theorem two_le_scanFrom {pos : Nat} {cs : List Char} {flags : TokenFlags}
    (h : (σ.scanFrom pos cs flags).kind.isKeyword = true) :
    (σ.scanFrom pos cs flags).tokenStart + 2 ≤ (σ.scanFrom pos cs flags).tokenEnd := by
  fun_induction scanFrom σ pos cs flags with
  | case1 pos flags => cases h
  | case2 pos flags c cs l htrivia ih => exact ih h
  | case3 pos flags c cs l hl =>
    have hk : l.kind.isKeyword = true := h
    have hplain := TokenKind.not_isTrivia_of_keyword hk
    have htoken : l = Lexeme.token σ.variant c cs := by
      have hshebang : (if pos = 0 then Lexeme.shebang? (c :: cs) else none) = none := by
        rw [Option.eq_none_iff_forall_ne_some]
        intro l' hl'
        have hl : l = l' := by simp [l, hl']
        split at hl'
        · rw [hl, (shebang?_lexeme hl').1] at hplain
          cases hplain
        · cases hl'
      have hread : l = Lexeme.read σ.variant c cs := by simp [l, hshebang]
      rw [hread, Lexeme.read]
      cases ht : Lexeme.trivia? c cs with
      | none => rfl
      | some l' =>
        rw [hread, Lexeme.read, ht, Option.getD_some, (Lexeme.trivia?_isTrivia ht).kind] at hplain
        cases hplain
    have htwo : 2 ≤ ((c :: cs).take l.length).length := by
      rw [htoken] at hk ⊢
      exact Lexeme.two_le_token σ.variant c cs hk
    exact Nat.add_le_add_left (Nat.le_trans htwo (Text.length_le_bytes _)) pos

/-- **A keyword that has just been read takes two bytes at least.** -/
theorem two_le_scan (h : σ.scan.kind.isKeyword = true) : σ.scan.tokenStart + 2 ≤ σ.scan.tokenEnd :=
  two_le_scanFrom h

end Scanner

end EstreeLint
