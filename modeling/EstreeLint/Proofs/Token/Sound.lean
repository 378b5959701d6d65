import EstreeLint.Proofs.Token.Lexeme
import EstreeLint.Proofs.Token.Trivia

/-!
A sound scanner: the token at hand lies between two places of the text, it starts where the
trivia before it stops, and it is not empty. Every way to read a token, or to read it again,
keeps a scanner sound.
-/

namespace EstreeLint

namespace Scanner

variable {text : Source} {s : Scanner}

structure Sound (text : Source) (s : Scanner) : Prop where
  source : s.source = text
  skips : s.skipTrivia = true
  boundary : Text.IsBoundary text s.fullStart
  start_on : s.start.On text
  cursor_on : s.cursor.On text
  fullStart_le : s.fullStart ≤ s.tokenStart
  /-- Text between tags is kept whole. -/
  tokenStart_eq : s.tokenStart =
    if s.kind.isElementText then s.fullStart else Trivia.skip text s.fullStart
  rest : s.kind ≠ .endOfFile → s.start.rest ≠ [] ∧ s.tokenStart < s.tokenEnd
  ends : s.kind = .endOfFile → s.tokenStart = Text.bytes text ∧ s.tokenEnd = Text.bytes text
  brace : s.kind = .closeBrace → s.start.rest.head? = some '\x7d'

/-! ### The next token -/

lemma accept_sound {start : Cursor} {l : Lexeme} (flags : TokenFlags) (hsrc : s.source = text)
    (hskip : s.skipTrivia = true) (hb : Text.IsBoundary text s.fullStart) (hon : start.On text)
    (hle : s.fullStart ≤ start.pos)
    (heq : start.pos = if l.kind.isElementText then s.fullStart else Trivia.skip text s.fullStart)
    (hrest : l.kind ≠ .endOfFile → start.rest ≠ [] ∧ 0 < l.length)
    (hends : l.kind = .endOfFile → start.rest = [])
    (hbrace : l.kind = .closeBrace → start.rest.head? = some '\x7d') :
    Sound text (s.accept start l flags) where
  source := hsrc
  skips := hskip
  boundary := hb
  start_on := hon
  cursor_on := hon.advance _
  fullStart_le := hle
  tokenStart_eq := heq
  rest hk := ⟨(hrest hk).1, Cursor.pos_lt_advance (hrest hk).1 (hrest hk).2⟩
  ends hk := by
    have h := hon.pos_add
    simp only [hends hk, Text.bytes_nil, Nat.add_zero] at h
    refine ⟨h, ?_⟩
    simp only [tokenEnd, accept, Cursor.advance, hends hk, List.take_nil, Text.bytes_nil, h,
      Nat.add_zero]
  brace := hbrace

/-- **A scan from inside trivia on gives a sound scanner.** -/
theorem scanFrom_sound (he : ValidEscapes text) {pos : Nat} {cs : List Char} {flags : TokenFlags}
    (hsrc : s.source = text) (hskip : s.skipTrivia = true)
    (hb : Text.IsBoundary text s.fullStart) (hon : Cursor.On text ⟨pos, cs⟩)
    (hle : s.fullStart ≤ pos) (hsh : pos = 0 → Lexeme.shebang? cs = none)
    (hstop : Trivia.skip text s.fullStart = Trivia.stop pos cs) :
    Sound text (s.scanFrom pos cs flags) := by
  rw [scanFrom.eq_def]
  match cs with
  | [] =>
    refine accept_sound flags hsrc hskip hb hon hle ?_ (fun h => absurd rfl h) (fun _ => rfl)
      (fun h => by cases h)
    simp [TokenKind.isElementText, hstop, Trivia.stop_nil]
  | c :: cs =>
    have hlex : (if pos = 0 then Lexeme.shebang? (c :: cs) else none) = none := by
      split
      · exact hsh ‹_›
      · rfl
    simp only [hlex, Option.getD_none, hskip, Bool.and_true]
    cases ht : Lexeme.trivia? c cs with
    | some l =>
      have hl := Lexeme.trivia?_isTrivia ht
      have hdrop : (c :: cs).drop l.length = cs.drop (l.length - 1) := by
        obtain ⟨n, hn⟩ := Nat.exists_eq_succ_of_ne_zero (Nat.ne_of_gt hl.pos)
        simp [hn]
      have hread : Lexeme.read s.variant c cs = l := by simp [Lexeme.read, ht]
      have hpos : 0 < Text.bytes ((c :: cs).take l.length) :=
        Text.bytes_pos (by simpa [List.take_eq_nil_iff] using Nat.ne_of_gt hl.pos)
      simp only [hread, hl.kind, if_true]
      refine scanFrom_sound he hsrc hskip hb (hdrop ▸ hon.advance l.length) (by omega)
        (fun h => by omega) ?_
      rw [hstop, hl.stop pos, hdrop]
    | none =>
      have hread : Lexeme.read s.variant c cs = Lexeme.token s.variant c cs := by
        simp [Lexeme.read, ht]
      have htok : Lexeme.IsToken c (Lexeme.token s.variant c cs) := by
        refine Lexeme.token_isToken _ fun ds hds => he ds ?_
        obtain ⟨u, hu, -⟩ := hon
        exact ⟨u, by rw [hu, ← hds]⟩
      have hplain := htok.plain
      simp only [TokenKind.isPlain, Bool.and_eq_true, Bool.not_eq_true', bne_iff_ne] at hplain
      simp only [hread, hplain.1.1, Bool.false_eq_true, if_false]
      refine accept_sound flags hsrc hskip hb hon hle ?_ (fun _ => ⟨by simp, htok.pos⟩)
        (fun h => absurd h hplain.2) (fun h => by simp [htok.brace h])
      simp [hplain.1.2, hstop, Lexeme.stop_of_trivia?_eq_none ht]
termination_by cs.length
decreasing_by
  simp only [List.length_drop, List.length_cons]
  omega

lemma skip_eq_stop {c : Cursor} (h : c.On text) (hp : c.pos = 0 → Trivia.shebang? text = none) :
    Trivia.skip text c.pos = Trivia.stop c.pos c.rest := by
  have hs : (if c.pos = 0 then (Trivia.shebang? text).getD 0 else c.pos) = c.pos := by
    split
    · next h0 => simp [hp h0, h0]
    · rfl
  rw [Trivia.skip, hs, h.suffixAt, ← h.pos_add, Trivia.stop]

/-- The `#!` line that the scanner skips is the one that trivia starts behind. -/
lemma shebang?_eq (cs : List Char) :
    Trivia.shebang? cs = (Lexeme.shebang? cs).map fun l => Text.bytes (cs.take l.length) := by
  unfold Lexeme.shebang? Trivia.shebang?
  split
  · next cs =>
    simp only [Option.map_some, Lexeme.take_line, Text.bytes_cons]
    rw [show '#'.utf8Size = 1 by decide, show '!'.utf8Size = 1 by decide]
    congr 1
    omega
  · next h =>
    split
    · next ds => exact absurd rfl (h ds)
    · rfl

lemma shebang?_lexeme {cs : List Char} {l : Lexeme} (h : Lexeme.shebang? cs = some l) :
    l.kind.isTrivia = true ∧ 0 < l.length := by
  unfold Lexeme.shebang? at h
  split at h
  · cases h
    exact ⟨rfl, by dsimp only; omega⟩
  · cases h

lemma scanFrom_shebang {cs : List Char} {l : Lexeme} (flags : TokenFlags)
    (hskip : s.skipTrivia = true) (h : Lexeme.shebang? cs = some l) :
    s.scanFrom 0 cs flags =
      s.scanFrom (Text.bytes (cs.take l.length)) (cs.drop l.length) (flags ∪ l.flags) := by
  obtain ⟨hk, hlen⟩ := shebang?_lexeme h
  rw [scanFrom.eq_def]
  cases cs with
  | nil => simp [Lexeme.shebang?] at h
  | cons c cs =>
    obtain ⟨n, hn⟩ := Nat.exists_eq_succ_of_ne_zero (Nat.ne_of_gt hlen)
    simp [h, hk, hskip, hn]

lemma on_zero {c : Cursor} (h : c.On text) (h0 : c.pos = 0) : text = c.rest := by
  obtain ⟨u, hu, hp⟩ := h
  obtain rfl : u = [] := by
    by_contra hne
    have := Text.bytes_pos hne
    omega
  exact hu

/-- **The next token of a scanner whose cursor stands on the text.** -/
theorem scan_sound_of_on (he : ValidEscapes text) (hsrc : s.source = text)
    (hskip : s.skipTrivia = true) (hon : s.cursor.On text) : Sound text s.scan := by
  unfold scan
  cases h : if s.cursor.pos = 0 then Lexeme.shebang? s.cursor.rest else none with
  | none =>
    have hsh (h0 : s.cursor.pos = 0) : Lexeme.shebang? s.cursor.rest = none := by simpa [h0] using h
    refine scanFrom_sound he hsrc hskip hon.isBoundary hon (Nat.le_refl _) hsh ?_
    refine skip_eq_stop hon fun h0 => ?_
    rw [on_zero hon h0, shebang?_eq, hsh h0, Option.map_none]
  | some l =>
    obtain ⟨h0, hl⟩ : s.cursor.pos = 0 ∧ Lexeme.shebang? s.cursor.rest = some l := by
      split at h
      · exact ⟨‹_›, h⟩
      · cases h
    obtain ⟨hk, hlen⟩ := shebang?_lexeme hl
    have htext : text = s.cursor.rest := on_zero hon h0
    have hfirst := scanFrom_shebang (s := { s with fullStart := s.cursor.pos }) {} hskip hl
    have hpos : 0 < Text.bytes (s.cursor.rest.take l.length) := by
      refine Text.bytes_pos fun e => ?_
      rcases List.take_eq_nil_iff.1 e with e | e
      · omega
      · simp [e, Lexeme.shebang?] at hl
    have hadv := hon.advance l.length
    rw [Cursor.advance, h0, Nat.zero_add] at hadv
    rw [h0] at hfirst ⊢
    rw [hfirst]
    refine scanFrom_sound he hsrc hskip (h0 ▸ hon.isBoundary) hadv (Nat.zero_le _)
      (fun h => by omega) ?_
    simp only [Trivia.skip, if_true, htext, shebang?_eq, hl, Option.map_some, Option.getD_some]
    rw [← htext] at hadv ⊢
    have hsuffix := hadv.suffixAt
    have hsum := hadv.pos_add
    simp only at hsuffix hsum
    rw [Trivia.stop, hsuffix, hsum]

lemma scanFrom_fullStart (s : Scanner) (pos : Nat) (cs : List Char) (flags : TokenFlags) :
    (s.scanFrom pos cs flags).fullStart = s.fullStart := by
  rw [scanFrom.eq_def]
  match cs with
  | [] => rfl
  | c :: cs =>
    dsimp only
    generalize (if pos = 0 then Lexeme.shebang? (c :: cs) else none).getD
      (Lexeme.read s.variant c cs) = l
    split
    · exact scanFrom_fullStart s _ (cs.drop (l.length - 1)) _
    · rfl
termination_by cs.length
decreasing_by
  simp only [List.length_drop, List.length_cons]
  omega

lemma scan_fullStart (s : Scanner) : s.scan.fullStart = s.tokenEnd := scanFrom_fullStart _ _ _ _

theorem Sound.scan (h : Sound text s) (he : ValidEscapes text) : Sound text s.scan :=
  scan_sound_of_on he h.source h.skips h.cursor_on

/-! ### The token at hand, read again -/

/-- Another reading of the token at hand that starts at the same place. -/
lemma Sound.reread {kind : TokenKind} {cursor : Cursor} {value : String} {flags : TokenFlags}
    (h : Sound text s) (hs : s.kind.isElementText = false) (hk : kind.isElementText = false)
    (he : kind ≠ .endOfFile) (hb : kind ≠ .closeBrace) (hon : cursor.On text)
    (hrest : s.start.rest ≠ []) (hlt : s.tokenStart < cursor.pos) :
    Sound text { s with kind := kind, cursor := cursor, value := value, flags := flags } where
  source := h.source
  skips := h.skips
  boundary := h.boundary
  start_on := h.start_on
  cursor_on := hon
  fullStart_le := h.fullStart_le
  tokenStart_eq := by
    have := h.tokenStart_eq
    simp only [hs, Bool.false_eq_true, if_false] at this
    simpa [hk, tokenStart] using this
  rest _ := ⟨hrest, hlt⟩
  ends hk' := absurd hk' he
  brace hk' := absurd hk' hb

theorem Sound.rescanGreater (h : Sound text s) : Sound text s.rescanGreater := by
  unfold Scanner.rescanGreater
  split
  · next hk =>
    simp only [beq_iff_eq] at hk
    obtain ⟨hne, hlt⟩ := h.rest (by rw [hk]; decide)
    have hkind : ∀ cs, (Punctuation.greaterRest cs).1.isElementText = false ∧
        (Punctuation.greaterRest cs).1 ≠ .endOfFile ∧
        (Punctuation.greaterRest cs).1 ≠ .closeBrace := by
      intro cs
      unfold Punctuation.greaterRest
      split <;> (try split) <;> decide
    obtain ⟨h₁, h₂, h₃⟩ := hkind s.cursor.rest
    exact h.reread (by rw [hk]; decide) h₁ h₂ h₃ (h.cursor_on.advance _) hne
      (Nat.lt_of_lt_of_le hlt (s.cursor.pos_le_advance _))
  · exact h

theorem Sound.rescanLess (h : Sound text s) : Sound text s.rescanLess := by
  unfold Scanner.rescanLess
  split
  · next hk =>
    simp only [Bool.or_eq_true, beq_iff_eq] at hk
    have hs : s.kind.isElementText = false ∧ s.kind ≠ .endOfFile := by
      rcases hk with hk | hk <;> rw [hk] <;> decide
    obtain ⟨hne, -⟩ := h.rest hs.2
    exact h.reread hs.1 (by decide) (by decide) (by decide) (h.start_on.advance 1) hne
      (Cursor.pos_lt_advance hne (by decide))
  · exact h

theorem Sound.rescanSlash (h : Sound text s) : Sound text s.rescanSlash := by
  unfold Scanner.rescanSlash
  split
  · next hk =>
    simp only [Bool.or_eq_true, beq_iff_eq] at hk
    have hs : s.kind.isElementText = false ∧ s.kind ≠ .endOfFile := by
      rcases hk with hk | hk <;> rw [hk] <;> decide
    obtain ⟨hne, -⟩ := h.rest hs.2
    exact h.reread hs.1 (by decide) (by decide) (by decide) (h.start_on.advance _) hne
      (Cursor.pos_lt_advance hne (by omega))
  · exact h

/-- A closing brace, read again as a piece of a template. -/
theorem Sound.rescanTemplate (h : Sound text s) (hk : s.kind = .closeBrace) :
    Sound text s.rescanTemplate ∧
      (s.rescanTemplate.kind = .templateMiddle ∨ s.rescanTemplate.kind = .templateTail) := by
  obtain ⟨cs, hcs⟩ := List.head?_eq_some_iff.1 (h.brace hk)
  obtain ⟨hne, -⟩ := h.rest (by rw [hk]; decide)
  have hone : (s.start.advance 1).pos = s.tokenStart + 1 := by
    simp only [Cursor.advance, hcs, tokenStart, List.take_succ_cons, List.take_zero,
      Text.bytes_cons, Text.bytes_nil]
    rfl
  have hon : (Cursor.ofOffset s.source (s.tokenStart + 1)).On text := by
    rw [h.source, ← hone]
    exact Cursor.on_ofOffset (h.start_on.advance 1).isBoundary
  have hkind : s.rescanTemplate.kind = .templateMiddle ∨ s.rescanTemplate.kind = .templateTail := by
    simp only [Scanner.rescanTemplate, Quoted.templateRest]
    split
    · exact .inl rfl
    · exact .inr rfl
  refine ⟨?_, hkind⟩
  have hplain : s.rescanTemplate.kind.isElementText = false ∧
      s.rescanTemplate.kind ≠ .endOfFile ∧ s.rescanTemplate.kind ≠ .closeBrace := by
    rcases hkind with hk' | hk' <;> rw [hk'] <;> decide
  exact h.reread (by rw [hk]; decide) hplain.1 hplain.2.1 hplain.2.2 (hon.advance _) hne
    (Nat.lt_of_lt_of_le (Nat.lt_succ_self _)
      ((Cursor.ofOffset s.source (s.tokenStart + 1)).pos_le_advance _))

/-- A token that is read again starts where it did, its trivia included. -/
lemma rescan_fullStart (s : Scanner) :
    s.rescanGreater.fullStart = s.fullStart ∧ s.rescanLess.fullStart = s.fullStart ∧
      s.rescanSlash.fullStart = s.fullStart ∧ s.scanJsxIdentifier.fullStart = s.fullStart := by
  unfold Scanner.rescanGreater Scanner.rescanLess Scanner.rescanSlash Scanner.scanJsxIdentifier
  refine ⟨?_, ?_, ?_, ?_⟩ <;> split <;> rfl

lemma start_halt (s : Scanner) : s.halt.start = s.start := by
  unfold halt
  split <;> rfl

lemma fullStart_halt (s : Scanner) : s.halt.fullStart = s.fullStart := by
  unfold halt
  split <;> rfl

lemma kind_halt (s : Scanner) :
    s.halt.kind ∈ [TokenKind.jsxText, .jsxTextAllWhiteSpaces, .endOfFile] := by
  unfold halt
  split
  · next h => simpa [or_assoc] using Or.inl h
  · simp

theorem Sound.scanJsxIdentifier (h : Sound text s) : Sound text s.scanJsxIdentifier := by
  unfold Scanner.scanJsxIdentifier
  split
  · next hk =>
    have hs := TokenKind.isPlain_of_word hk
    have hplain := hs.1
    simp only [TokenKind.isPlain, Bool.and_eq_true, Bool.not_eq_true', bne_iff_ne] at hplain
    obtain ⟨hne, hlt⟩ := h.rest hplain.2
    have hw := TokenKind.isPlain_of_word (TokenKind.isIdentifierOrKeyword_ofWord
      ({ s with cursor := s.cursor.advance (jsxNameRest s.cursor.rest).1,
                flags := s.flags ∪ (jsxNameRest s.cursor.rest).2 } : Scanner).tokenText)
    have hwplain := hw.1
    simp only [TokenKind.isPlain, Bool.and_eq_true, Bool.not_eq_true', bne_iff_ne] at hwplain
    exact h.reread hplain.1.2 hwplain.1.2 hwplain.2 hw.2 (h.cursor_on.advance _) hne
      (Nat.lt_of_lt_of_le hlt (s.cursor.pos_le_advance _))
  · exact h

/-! ### Inside elements -/

/-- A character that is neither trivia nor opens any is not skipped. -/
lemma skip_eq_self {c : Cursor} {d : Char} {ds : List Char} (h : c.On text)
    (hc : c.rest = d :: ds) (hd : Lexeme.trivia? d ds = none) (hsharp : d ≠ '#') :
    Trivia.skip text c.pos = c.pos := by
  rw [skip_eq_stop h, hc, Lexeme.stop_of_trivia?_eq_none hd]
  intro h0
  rw [on_zero h h0, hc]
  unfold Trivia.shebang?
  split
  · next heq => exact absurd (List.cons.inj heq).1 hsharp
  · rfl

/-- A token that starts right at the cursor. -/
lemma Sound.acceptHere {l : Lexeme} {d : Char} {ds : List Char} (h : Sound text s)
    (hc : s.cursor.rest = d :: ds)
    (hd : l.kind.isElementText = false → Lexeme.trivia? d ds = none ∧ d ≠ '#')
    (hk : l.kind ≠ .endOfFile ∧ l.kind ≠ .closeBrace) (hl : 0 < l.length) :
    Sound text ({ s with fullStart := s.cursor.pos }.accept s.cursor l {}) := by
  refine accept_sound {} h.source h.skips h.cursor_on.isBoundary h.cursor_on (Nat.le_refl _) ?_
    (fun _ => ⟨by simp [hc], hl⟩) (fun e => absurd e hk.1) (fun e => absurd e hk.2)
  cases ht : l.kind.isElementText with
  | true => rfl
  | false => exact (skip_eq_self h.cursor_on hc (hd ht).1 (hd ht).2).symm

theorem Sound.scanJsxToken (h : Sound text s) : Sound text s.scanJsxToken := by
  unfold Scanner.scanJsxToken
  dsimp only
  split
  · next hc =>
    refine accept_sound {} h.source h.skips h.cursor_on.isBoundary h.cursor_on (Nat.le_refl _) ?_
      (fun e => absurd rfl e) (fun _ => hc) (fun e => by cases e)
    have hsh (h0 : s.cursor.pos = 0) : Trivia.shebang? text = none := by
      rw [on_zero h.cursor_on h0, hc]
      rfl
    have hskip : Trivia.skip text s.cursor.pos = s.cursor.pos := by
      rw [skip_eq_stop h.cursor_on hsh, hc, Trivia.stop_nil]
    simpa [TokenKind.isElementText] using hskip.symm
  · next ds hc => exact h.acceptHere hc (fun _ => ⟨by rfl, by decide⟩) (by decide) (by decide)
  · next ds _ hc => exact h.acceptHere hc (fun _ => ⟨by rfl, by decide⟩) (by decide) (by decide)
  · next ds hc => exact h.acceptHere hc (fun _ => ⟨by rfl, by decide⟩) (by decide) (by decide)
  · next h₁ h₂ h₃ h₄ =>
    obtain ⟨d, ds, hd⟩ := List.exists_cons_of_ne_nil h₁
    have hne : d ≠ '\x7b' ∧ d ≠ '<' :=
      ⟨fun e => h₄ ds (by rw [hd, e]), fun e => h₃ ds (by rw [hd, e])⟩
    have hlen : 0 < (s.cursor.rest.takeWhile fun c => c != '\x7b' && c != '<').length := by
      simp [hd, hne]
    refine h.acceptHere hd (fun ht => ?_) ?_ hlen
    · dsimp only at ht
      split at ht <;> exact absurd ht (by decide)
    · dsimp only
      split <;> decide

lemma scanJsxToken_fullStart (s : Scanner) : s.scanJsxToken.fullStart = s.tokenEnd := by
  unfold Scanner.scanJsxToken
  dsimp only
  split <;> rfl

lemma scanJsxAttributeValue_fullStart (s : Scanner) :
    s.scanJsxAttributeValue.fullStart = s.tokenEnd := by
  unfold Scanner.scanJsxAttributeValue
  split
  · split
    · rfl
    · exact s.scan_fullStart
  · exact s.scan_fullStart

theorem Sound.scanJsxAttributeValue (h : Sound text s) (he : ValidEscapes text) :
    Sound text s.scanJsxAttributeValue := by
  unfold Scanner.scanJsxAttributeValue
  split
  · next c cs hc =>
    split
    · next hq =>
      simp only [Bool.or_eq_true, beq_iff_eq] at hq
      refine h.acceptHere hc (fun _ => ?_) (by simp [Quoted.stringLexeme])
        (by simp only [Quoted.stringLexeme]; omega)
      rcases hq with rfl | rfl <;> exact ⟨by rfl, by decide⟩
    · exact h.scan he
  · exact h.scan he

end Scanner

end EstreeLint
