import EstreeLint.Proofs.Token.Placed

/-!
What one scan does, and what scans in a row do.

A scan passes over pieces of trivia, if the scanner skips them, and takes what is read at the place
behind them. All that is known of a scan follows from this one description (`scan_eq`).
-/

namespace EstreeLint

namespace TokenFlags

@[simp] lemma precedingLineBreak_union (a b : TokenFlags) :
    (a ∪ b).precedingLineBreak = (a.precedingLineBreak || b.precedingLineBreak) := rfl

@[simp] lemma unicodeEscape_union (a b : TokenFlags) :
    (a ∪ b).unicodeEscape = (a.unicodeEscape || b.unicodeEscape) := rfl

/-- The flags with those of pieces of trivia that have been passed over. -/
def gather (flags : TokenFlags) (ls : List Lexeme) : TokenFlags :=
  ls.foldl (fun f l => f ∪ l.flags) flags

end TokenFlags

lemma Lexeme.isTrivia_token (v : Variant) (c : Char) (cs : List Char) :
    (token v c cs).kind.isTrivia = false := by
  have hplain := (token_kind v c cs).1
  simp only [TokenKind.isPlain, Bool.and_eq_true, Bool.not_eq_true'] at hplain
  exact hplain.1.1

/-! ### What stands at a place -/

namespace Cursor

variable {text : Source} {v : Variant} {c d : Cursor} {ls : List Lexeme}

/-- What is read at a place: the `#!` line, a piece of trivia, a token, or the end of the text. -/
def lexeme (v : Variant) (c : Cursor) : Lexeme :=
  match c.rest with
  | [] => { kind := .endOfFile, length := 0 }
  | x :: cs => (if c.pos = 0 then Lexeme.shebang? (x :: cs) else none).getD (.read v x cs)

/-- From one place to another over pieces of trivia. -/
inductive Passes (v : Variant) : Cursor → List Lexeme → Cursor → Prop
  | here (c : Cursor) : Passes v c [] c
  | piece {c d : Cursor} {ls : List Lexeme} (trivia : (c.lexeme v).kind.isTrivia = true)
      (rest : Passes v (c.advance (c.lexeme v).length) ls d) : Passes v c (c.lexeme v :: ls) d

lemma Passes.on (h : Passes v c ls d) (hc : c.On text) : d.On text := by
  induction h with
  | here c => exact hc
  | piece _ _ ih => exact ih (hc.advance _)

lemma Passes.pos_le (h : Passes v c ls d) : c.pos ≤ d.pos := by
  induction h with
  | here c => exact Nat.le_refl _
  | piece _ _ ih => exact Nat.le_trans (pos_le_advance _ _) ih

/-- At the end of the text nothing is read, and elsewhere the `#!` line, trivia or a token. -/
lemma lexeme_cases (v : Variant) (c : Cursor) :
    c.rest = [] ∧ c.lexeme v = { kind := .endOfFile, length := 0 } ∨
    (∃ l, c.pos = 0 ∧ Lexeme.shebang? c.rest = some l ∧ c.lexeme v = l) ∨
    (∃ x cs, c.rest = x :: cs ∧ Lexeme.trivia? x cs = some (c.lexeme v)) ∨
    ∃ x cs, c.rest = x :: cs ∧ Lexeme.trivia? x cs = none ∧ c.lexeme v = Lexeme.token v x cs := by
  obtain ⟨pos, rest⟩ := c
  cases rest with
  | nil => exact .inl ⟨rfl, rfl⟩
  | cons x cs =>
    cases hs : if pos = 0 then Lexeme.shebang? (x :: cs) else none with
    | some l =>
      split at hs
      · exact .inr (.inl ⟨l, ‹_›, hs, by simp [lexeme, ‹pos = 0›, hs]⟩)
      · cases hs
    | none =>
      have hread : lexeme v ⟨pos, x :: cs⟩ = Lexeme.read v x cs := by simp [lexeme, hs]
      cases ht : Lexeme.trivia? x cs with
      | some l => exact .inr (.inr (.inl ⟨x, cs, rfl, by simp [hread, Lexeme.read, ht]⟩))
      | none => exact .inr (.inr (.inr ⟨x, cs, rfl, ht, by simp [hread, Lexeme.read, ht]⟩))

/-- Trivia is not empty. -/
lemma lexeme_pos_of_isTrivia (h : (c.lexeme v).kind.isTrivia = true) :
    c.rest ≠ [] ∧ 0 < (c.lexeme v).length := by
  rcases lexeme_cases v c with ⟨-, hl⟩ | ⟨l, -, hs, hl⟩ | ⟨x, cs, hrest, ht⟩ | ⟨x, cs, -, -, hl⟩
  · rw [hl] at h
    cases h
  · rw [hl]
    refine ⟨fun he => ?_, (Scanner.shebang?_lexeme hs).2⟩
    rw [he] at hs
    cases hs
  · exact ⟨by rw [hrest]; simp, (Lexeme.trivia?_isTrivia ht).pos⟩
  · rw [hl, Lexeme.isTrivia_token] at h
    cases h

end Cursor

/-! ### One scan -/

namespace Scanner

variable {text : Source} {s t : Scanner}

/-- **What a scan does.** It passes over pieces of trivia and takes what is read behind them. It
passes over all of the trivia or, if the scanner keeps trivia, over none of it. -/
theorem scanFrom_eq (s : Scanner) (pos : Nat) (cs : List Char) (flags : TokenFlags) :
    ∃ ls d, Cursor.Passes s.variant ⟨pos, cs⟩ ls d ∧
      s.scanFrom pos cs flags =
        s.accept d (d.lexeme s.variant) (flags.gather ls) ∧
      if s.skipTrivia then (d.lexeme s.variant).kind.isTrivia = false else ls = [] := by
  rw [scanFrom.eq_def]
  match cs with
  | [] => exact ⟨[], _, .here _, rfl, by split <;> rfl⟩
  | c :: cs =>
    have hlexeme : (if pos = 0 then Lexeme.shebang? (c :: cs) else none).getD
        (.read s.variant c cs) = Cursor.lexeme s.variant ⟨pos, c :: cs⟩ := rfl
    have hlength := (lexeme_cases s.variant pos c cs).1
    simp only [hlexeme] at hlength ⊢
    generalize hl : Cursor.lexeme s.variant ⟨pos, c :: cs⟩ = l at hlength ⊢
    split
    · next h =>
      obtain ⟨htrivia, hskip⟩ := Bool.and_eq_true_iff.1 h
      obtain ⟨n, hn⟩ := Nat.exists_eq_succ_of_ne_zero (Nat.ne_of_gt (hlength htrivia))
      have hadvance : Cursor.mk (pos + Text.bytes ((c :: cs).take l.length))
          (cs.drop (l.length - 1)) = Cursor.advance ⟨pos, c :: cs⟩ l.length := by
        simp [Cursor.advance, hn]
      obtain ⟨ls, d, hpasses, hscan, hstop⟩ := scanFrom_eq s
        (pos + Text.bytes ((c :: cs).take l.length)) (cs.drop (l.length - 1)) (flags ∪ l.flags)
      rw [hskip] at hstop ⊢
      subst hl
      exact ⟨_ :: ls, d, .piece htrivia (hadvance ▸ hpasses), hscan, hstop⟩
    · next h =>
      refine ⟨[], _, .here _, by rw [hl]; rfl, ?_⟩
      split
      · next hskip => simpa [hl, hskip] using h
      · rfl
termination_by cs.length
decreasing_by
  simp only [List.length_drop, List.length_cons]
  omega

theorem scan_eq (s : Scanner) : ∃ ls d, Cursor.Passes s.variant s.cursor ls d ∧
    s.scan = { s with fullStart := s.cursor.pos }.accept d (d.lexeme s.variant)
      (TokenFlags.gather {} ls) ∧
    if s.skipTrivia then (d.lexeme s.variant).kind.isTrivia = false else ls = [] :=
  scanFrom_eq { s with fullStart := s.cursor.pos } s.cursor.pos s.cursor.rest {}

/-- A scanner that keeps trivia takes what is read at its cursor. -/
lemma scan_of_keeps (h : s.skipTrivia = false) :
    s.scan = { s with fullStart := s.cursor.pos }.accept s.cursor
      (s.cursor.lexeme s.variant) {} := by
  obtain ⟨ls, d, hpasses, hscan, hstop⟩ := scan_eq s
  rw [h] at hstop
  obtain rfl : ls = [] := by simpa using hstop
  cases hpasses
  exact hscan

/-! ### Scans in a row -/

/-- The scanner behind each of the next `n` scans. -/
def scans (s : Scanner) : Nat → List Scanner
  | 0 => []
  | n + 1 => s.scan :: s.scan.scans n

/-- Tokens that lie one right behind the other, none of them empty, from one offset to another. -/
inductive Tile : Nat → List Scanner → Nat → Prop
  | nil (p : Nat) : Tile p [] p
  | cons {t : Scanner} {ts : List Scanner} {q : Nat} (front : t.fullStart = t.tokenStart)
      (full : t.tokenStart < t.tokenEnd) (rest : Tile t.tokenEnd ts q) :
      Tile t.tokenStart (t :: ts) q

/-- A scanner that keeps trivia puts the next token right behind the one at hand. -/
lemma tile_scan {ts : List Scanner} {q : Nat} (h : s.skipTrivia = false) (hne : s.cursor.rest ≠ [])
    (hpos : 0 < (s.cursor.lexeme s.variant).length) (hts : Tile s.scan.tokenEnd ts q) :
    Tile s.tokenEnd (s.scan :: ts) q := by
  have hscan := scan_of_keeps h
  have hstart : s.scan.tokenStart = s.tokenEnd := by rw [hscan]; rfl
  have hfull : s.scan.tokenStart < s.scan.tokenEnd := by
    rw [hscan]
    exact Cursor.pos_lt_advance hne hpos
  rw [← hstart]
  exact .cons (s.scan_fullStart.trans hstart.symm) hfull hts

end Scanner

end EstreeLint
