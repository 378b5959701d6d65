import EstreeLint.Proofs.Token.Sound

/-!
A scanner that is placed on its text, whatever the text is: the token at hand lies inside it, and
the trivia before the token does not reach behind its start. Unlike a sound scanner a placed one
may have read nothing, as it does at an escape that is no part of a name.
-/

namespace EstreeLint

namespace Lexeme

/-- A token that begins with an escape is a word. -/
lemma token_escape (v : Variant) (ds : List Char) :
    token v '\\' ('u' :: ds) = Word.lexeme ('\\' :: 'u' :: ds) := by
  cases v <;> rfl

/-- The kind of a token is plain, and only a brace is read as one. -/
lemma token_kind (v : Variant) (c : Char) (cs : List Char) :
    (token v c cs).kind.isPlain = true ∧ ((token v c cs).kind = .closeBrace → c = '\x7d') := by
  by_cases h : ∃ ds, c :: cs = '\\' :: 'u' :: ds
  · obtain ⟨ds, h⟩ := h
    obtain ⟨rfl, rfl⟩ := List.cons.inj h
    have hword : (Word.lexeme ('\\' :: 'u' :: ds)).kind.isIdentifierOrKeyword = true := by
      simp only [Word.lexeme]
      split
      · rfl
      · exact TokenKind.isIdentifierOrKeyword_ofWord _
    obtain ⟨hplain, hbrace⟩ := TokenKind.isPlain_of_word hword
    rw [token_escape]
    exact ⟨hplain, fun hk => absurd hk hbrace⟩
  · have htoken := token_isToken v fun ds hds => absurd ⟨ds, hds⟩ h
    exact ⟨htoken.plain, htoken.brace⟩

end Lexeme

namespace Scanner

variable {σ : Scanner}

structure Placed (σ : Scanner) : Prop where
  start_on : σ.start.On σ.source
  cursor_on : σ.cursor.On σ.source
  fullStart_le : σ.fullStart ≤ σ.tokenStart
  tokenStart_le : σ.tokenStart ≤ σ.tokenEnd
  brace : σ.kind = .closeBrace → σ.start.rest.head? = some '\x7d'

lemma Placed.fullStart_le_tokenEnd (h : σ.Placed) : σ.fullStart ≤ σ.tokenEnd :=
  Nat.le_trans h.fullStart_le h.tokenStart_le

lemma Placed.tokenEnd_le (h : σ.Placed) : σ.tokenEnd ≤ Text.bytes σ.source := by
  have := h.cursor_on.pos_add
  simp only [tokenEnd]
  omega

/-! ### The next token -/

lemma accept_placed {start : Cursor} {l : Lexeme} (flags : TokenFlags) (hon : start.On σ.source)
    (hle : σ.fullStart ≤ start.pos)
    (hbrace : l.kind = .closeBrace → start.rest.head? = some '\x7d') :
    (σ.accept start l flags).Placed where
  start_on := hon
  cursor_on := hon.advance _
  fullStart_le := hle
  tokenStart_le := start.pos_le_advance _
  brace := hbrace

/-- What is read at the front of a text: trivia is not empty, and only a brace is read as one. -/
lemma lexeme_cases (v : Variant) (pos : Nat) (c : Char) (cs : List Char) :
    let l := ((if pos = 0 then Lexeme.shebang? (c :: cs) else none)).getD (.read v c cs)
    (l.kind.isTrivia = true → 0 < l.length) ∧ (l.kind = .closeBrace → c = '\x7d') := by
  intro l
  have htrivia {l : Lexeme} (hk : l.kind.isTrivia = true) (hl : 0 < l.length) :
      (l.kind.isTrivia = true → 0 < l.length) ∧ (l.kind = .closeBrace → c = '\x7d') :=
    ⟨fun _ => hl, fun e => by rw [e] at hk; cases hk⟩
  cases hs : if pos = 0 then Lexeme.shebang? (c :: cs) else none with
  | some l' =>
    have hl : Lexeme.shebang? (c :: cs) = some l' := by
      split at hs
      · exact hs
      · cases hs
    obtain ⟨hk, hlen⟩ := shebang?_lexeme hl
    simpa [l, hs] using htrivia hk hlen
  | none =>
    have hread : l = Lexeme.read v c cs := by simp [l, hs]
    rw [hread]
    cases ht : Lexeme.trivia? c cs with
    | some l' =>
      have hl := Lexeme.trivia?_isTrivia ht
      simpa [Lexeme.read, ht] using htrivia hl.kind hl.pos
    | none =>
      obtain ⟨hplain, hbrace⟩ := Lexeme.token_kind v c cs
      simp only [TokenKind.isPlain, Bool.and_eq_true, Bool.not_eq_true'] at hplain
      simp only [Lexeme.read, ht, Option.getD_none]
      exact ⟨fun e => by simp [e] at hplain, hbrace⟩

/-- **A scan from inside trivia on stays on the text.** -/
theorem scanFrom_placed {pos : Nat} {cs : List Char} {flags : TokenFlags}
    (hon : Cursor.On σ.source ⟨pos, cs⟩) (hle : σ.fullStart ≤ pos) :
    (σ.scanFrom pos cs flags).Placed := by
  rw [scanFrom.eq_def]
  match cs with
  | [] => exact accept_placed flags hon hle fun e => by cases e
  | c :: cs =>
    have hcases := lexeme_cases σ.variant pos c cs
    dsimp only at hcases ⊢
    generalize (if pos = 0 then Lexeme.shebang? (c :: cs) else none).getD
      (.read σ.variant c cs) = l at hcases ⊢
    obtain ⟨htrivia, hbrace⟩ := hcases
    split
    · next h =>
      obtain ⟨n, hn⟩ := Nat.exists_eq_succ_of_ne_zero
        (Nat.ne_of_gt (htrivia (Bool.and_eq_true_iff.1 h).1))
      have hnext := hon.advance l.length
      have hdrop : (c :: cs).drop l.length = cs.drop (l.length - 1) := by simp [hn]
      rw [Cursor.advance, hdrop] at hnext
      exact scanFrom_placed hnext (by omega)
    · exact accept_placed flags hon hle fun e => by simp [hbrace e]
termination_by cs.length
decreasing_by
  simp only [List.length_drop, List.length_cons]
  omega

/-- A way to read a token, or to read the one at hand again, that stays on the text and never goes
back in it. -/
class Moves (f : Scanner → Scanner) : Prop extends Reading f where
  placed {σ : Scanner} : σ.Placed → (f σ).Placed
  fullStart_le {σ : Scanner} : σ.Placed → σ.fullStart ≤ (f σ).fullStart

lemma scan_placed (hon : σ.cursor.On σ.source) : σ.scan.Placed :=
  scanFrom_placed (σ := { σ with fullStart := σ.cursor.pos }) hon (Nat.le_refl _)

instance : Moves scan where
  placed h := scan_placed h.cursor_on
  fullStart_le {σ} h := σ.scan_fullStart ▸ h.fullStart_le_tokenEnd

/-! ### The token at hand, read again -/

/-- Another reading of the token at hand that starts at the same place. -/
lemma Placed.reread {kind : TokenKind} {cursor : Cursor} {value : String} {flags : TokenFlags}
    (h : σ.Placed) (hk : kind ≠ .closeBrace) (hon : cursor.On σ.source)
    (hle : σ.tokenStart ≤ cursor.pos) :
    ({ σ with kind := kind, cursor := cursor, value := value, flags := flags } : Scanner).Placed :=
  ⟨h.start_on, hon, h.fullStart_le, hle, fun e => absurd e hk⟩

instance : Moves rescanGreater where
  fullStart_le {σ} _ := Nat.le_of_eq σ.rescan_fullStart.1.symm
  placed {σ} h := by
    unfold rescanGreater
    split
    · have hkind : (Punctuation.greaterRest σ.cursor.rest).1 ≠ .closeBrace := by
        unfold Punctuation.greaterRest
        split <;> (try split) <;> decide
      exact h.reread hkind (h.cursor_on.advance _)
        (Nat.le_trans h.tokenStart_le (σ.cursor.pos_le_advance _))
    · exact h

instance : Moves halt where
  fullStart_le {σ} _ := Nat.le_of_eq σ.fullStart_halt.symm
  placed {σ} h := by
    unfold halt
    split
    · exact h
    · exact h.reread (by decide) h.cursor_on h.tokenStart_le

instance : Moves rescanLess where
  fullStart_le {σ} _ := Nat.le_of_eq σ.rescan_fullStart.2.1.symm
  placed {σ} h := by
    unfold rescanLess
    split
    · exact h.reread (by decide) (h.start_on.advance 1) (σ.start.pos_le_advance 1)
    · exact h

instance : Moves rescanSlash where
  fullStart_le {σ} _ := Nat.le_of_eq σ.rescan_fullStart.2.2.1.symm
  placed {σ} h := by
    unfold rescanSlash
    split
    · exact h.reread (by decide) (h.start_on.advance _) (σ.start.pos_le_advance _)
    · exact h

instance : Moves scanJsxIdentifier where
  fullStart_le {σ} _ := Nat.le_of_eq σ.rescan_fullStart.2.2.2.symm
  placed {σ} h := by
    unfold scanJsxIdentifier
    split
    · exact h.reread (TokenKind.isPlain_of_word (TokenKind.isIdentifierOrKeyword_ofWord _)).2
        (h.cursor_on.advance _) (Nat.le_trans h.tokenStart_le (σ.cursor.pos_le_advance _))
    · exact h

/-- A closing brace, read again as a piece of a template. -/
theorem Placed.rescanTemplate (h : σ.Placed) (hk : σ.kind = .closeBrace) :
    σ.rescanTemplate.Placed := by
  obtain ⟨cs, hcs⟩ := List.head?_eq_some_iff.1 (h.brace hk)
  have hone : (σ.start.advance 1).pos = σ.tokenStart + 1 := by
    simp only [Cursor.advance, hcs, tokenStart, List.take_succ_cons, List.take_zero,
      Text.bytes_cons, Text.bytes_nil]
    rfl
  have hon : (Cursor.ofOffset σ.source (σ.tokenStart + 1)).On σ.source := by
    rw [← hone]
    exact Cursor.on_ofOffset (h.start_on.advance 1).isBoundary
  have hkind : σ.rescanTemplate.kind ≠ .closeBrace := by
    simp only [Scanner.rescanTemplate, Quoted.templateRest]
    split <;> decide
  exact h.reread hkind (hon.advance _)
    (Nat.le_trans (Nat.le_succ _) ((Cursor.ofOffset σ.source (σ.tokenStart + 1)).pos_le_advance _))

/-! ### Inside elements -/

/-- A token that starts right at the cursor. -/
lemma Placed.acceptHere {l : Lexeme} (h : σ.Placed) (hk : l.kind ≠ .closeBrace) :
    ({ σ with fullStart := σ.cursor.pos }.accept σ.cursor l {}).Placed :=
  accept_placed (σ := { σ with fullStart := σ.cursor.pos }) {} h.cursor_on (Nat.le_refl _)
    fun e => absurd e hk

instance : Moves scanJsxToken where
  fullStart_le {σ} h := σ.scanJsxToken_fullStart ▸ h.fullStart_le_tokenEnd
  placed {σ} h := by
    unfold scanJsxToken
    dsimp only
    split
    · exact h.acceptHere (by decide)
    · exact h.acceptHere (by decide)
    · exact h.acceptHere (by decide)
    · exact h.acceptHere (by decide)
    · refine h.acceptHere ?_
      dsimp only
      split <;> decide

instance : Moves scanJsxAttributeValue where
  fullStart_le {σ} h := σ.scanJsxAttributeValue_fullStart ▸ h.fullStart_le_tokenEnd
  placed {σ} h := by
    unfold scanJsxAttributeValue
    split
    · split
      · exact h.acceptHere (by simp [Quoted.stringLexeme])
      · exact Moves.placed h
    · exact Moves.placed h

end Scanner

end EstreeLint
