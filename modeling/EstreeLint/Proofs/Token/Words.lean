import EstreeLint.Proofs.Text.Slice
import EstreeLint.Proofs.Token.Longest
import EstreeLint.Proofs.Token.Scans

/-!
The kind of a token and its text agree: punctuation and keywords are written as their kinds are,
punctuation is the longest that may be read, and a word without escapes is a keyword exactly if the
table has it.
-/

namespace EstreeLint

/-! ### Words -/

namespace Word

/-- A text begins with a word: with a character that a name may start with, or with `\u`. -/
def opens : List Char → Bool
  | [] => false
  | c :: cs => Text.isIdentifierStart c || (c == '\\' && cs.head? == some 'u')

lemma not_part_backslash : Text.isIdentifierPart '\\' = false := by decide

/-- A word has an escape exactly if a backslash stands in it. -/
lemma unicodeEscape_parts (cs : List Char) :
    (parts cs).flags.unicodeEscape = true ↔ '\\' ∈ cs.take (parts cs).length := by
  fun_induction parts cs with
  | case2 c cs hpart ih =>
    have hne : '\\' ≠ c := fun e => by simp [← e, not_part_backslash] at hpart
    simp [Parts.cons, ih, Nat.add_comm 1, hne]
  | case3 c hc hesc cs e d hd hpart ih =>
    obtain rfl : c = '\\' := by simpa using hesc
    rw [Parts.cons, Nat.add_assoc, Nat.add_comm 2, List.take_succ_cons]
    simp
  | _ => simp

/-- Without escapes a word is as long as the characters of names go on. -/
lemma parts_of_plain (cs : List Char) (h : (parts cs).flags.unicodeEscape = false) :
    (parts cs).value = cs.takeWhile Text.isIdentifierPart ∧
      cs.take (parts cs).length = cs.takeWhile Text.isIdentifierPart := by
  fun_induction parts cs with
  | case1 => simp
  | case2 c cs hpart ih =>
    obtain ⟨hvalue, htake⟩ := ih (by simpa [Parts.cons] using h)
    simp [Parts.cons, hvalue, htake, hpart, Nat.add_comm 1]
  | case3 c hc hesc cs e d hd hpart ih => simp [Parts.cons] at h
  | case4 c hc | case5 c hc | case6 c cs hc | case7 c cs hc => simp [hc]

end Word

/-! ### What a token is -/

namespace Text

variable {c : Char}

lemma not_start_of_digit (h : c.isDigit = true) : isIdentifierStart c = false := by
  have hall : ∀ n ∈ List.range' 48 10, isIdentifierStart (Char.ofNat n) = false := by decide
  have hrange : 48 ≤ c.toNat ∧ c.toNat ≤ 57 := by
    simpa [Char.isDigit, UInt32.le_iff_toNat_le] using h
  rw [← Char.ofNat_toNat c]
  refine hall _ (List.mem_range'_1.2 ?_)
  omega

lemma not_start_of_blank (h : isBlank c = true) : isIdentifierStart c = false := by
  have hall : ∀ n ∈ [0x20, 0x09, 0x0B, 0x0C, 0xA0, 0x85, 0x1680, 0x202F, 0x205F, 0x3000, 0xFEFF] ++
      List.range' 0x2000 12, isIdentifierStart (Char.ofNat n) = false := by decide +kernel
  rw [← Char.ofNat_toNat c]
  refine hall _ ?_
  simp only [isBlank, Bool.or_eq_true, Bool.and_eq_true, beq_iff_eq, decide_eq_true_eq] at h
  simp only [List.mem_append, List.mem_cons, List.not_mem_nil, or_false, List.mem_range'_1]
  omega

lemma not_start_of_lineBreak (h : isLineBreak c = true) : isIdentifierStart c = false := by
  simp only [isLineBreak, Bool.or_eq_true, beq_iff_eq] at h
  rcases h with ((rfl | rfl) | rfl) | rfl <;> decide +kernel

end Text

namespace Word

variable {c : Char} {cs : List Char}

lemma opens_cases (h : opens (c :: cs) = true) : Text.isIdentifierStart c = true ∨ c = '\\' := by
  simp only [opens, Bool.or_eq_true, Bool.and_eq_true, beq_iff_eq] at h
  exact h.imp_right And.left

/-- White space and line breaks do not begin a word. -/
lemma not_blank_of_opens (h : opens (c :: cs) = true) :
    ¬ (Text.isBlank c = true ∨ Text.isLineBreak c = true) := by
  intro hc
  have hstart : Text.isIdentifierStart c = false :=
    hc.elim Text.not_start_of_blank Text.not_start_of_lineBreak
  rcases opens_cases h with h | rfl
  · rw [hstart] at h
    cases h
  · revert hc
    decide

end Word

lemma Punctuation.read?_of_opens {jsx : Bool} {c : Char} {cs : List Char}
    (h : Word.opens (c :: cs) = true) : read? jsx c cs = none := by
  unfold read?
  split
  case h_27 => rfl
  all_goals cases h

namespace Lexeme

variable {c : Char} {cs : List Char}

lemma trivia?_of_opens (h : Word.opens (c :: cs) = true) : trivia? c cs = none := by
  rw [Option.eq_none_iff_forall_ne_some]
  intro l hl
  rcases trivia?_cases hl with ⟨u, v, hcs, hu⟩ | ⟨ds, hcs, -⟩ | ⟨ds, hcs, -⟩
  · obtain ⟨d, u, rfl⟩ := List.exists_cons_of_length_pos hu.pos
    obtain ⟨rfl, -⟩ := List.cons.inj hcs
    exact Word.not_blank_of_opens h (hu.blank c (List.mem_cons_self ..))
  · rw [hcs] at h
    cases h
  · rw [hcs] at h
    cases h

/-- Where a word begins, a word is read. -/
lemma token_of_opens (v : Variant) (h : Word.opens (c :: cs) = true) :
    token v c cs = Word.lexeme (c :: cs) := by
  unfold token
  split
  · next hc =>
    rcases (by simpa using hc : c = '"' ∨ c = '\x27') with rfl | rfl <;> cases h
  split
  · next hc =>
    obtain rfl : c = '\x60' := by simpa using hc
    cases h
  split
  · next hc =>
    rcases (by simpa using hc : c.isDigit = true ∨ c = '.' ∧ _) with hdigit | ⟨rfl, -⟩
    · have hstart := Text.not_start_of_digit hdigit
      rcases Word.opens_cases h with h | rfl
      · rw [hstart] at h
        cases h
      · cases hdigit
    · cases h
  split
  · next hc =>
    obtain ⟨rfl, -⟩ : c = '#' ∧ _ := by simpa using hc
    cases h
  rw [Punctuation.read?_of_opens h]
  exact if_pos h

/-- A token is punctuation, a word, or neither. -/
lemma token_cases (v : Variant) (c : Char) (cs : List Char) :
    (∃ x, Punctuation.read? (v == .jsx) c cs = some x ∧
      token v c cs = { kind := x.1, length := x.2 }) ∨
    Word.opens (c :: cs) = true ∨
    (token v c cs).kind.isPunctuation = false ∧ (token v c cs).kind.isKeyword = false := by
  unfold token
  split
  · exact .inr (.inr ⟨rfl, rfl⟩)
  split
  · refine .inr (.inr ?_)
    simp only [Quoted.templateStart]
    split <;> exact ⟨rfl, rfl⟩
  split
  · refine .inr (.inr ?_)
    simp only [Number.lexeme]
    split <;> exact ⟨rfl, rfl⟩
  split
  · exact .inr (.inr ⟨rfl, rfl⟩)
  split
  · next k n hread => exact .inl ⟨(k, n), hread, rfl⟩
  split
  · next hopens => exact .inr (.inl hopens)
  · exact .inr (.inr ⟨rfl, rfl⟩)

end Lexeme

/-! ### The tables -/

namespace TokenKind

variable {k : TokenKind} {w : String}

/-- A kind of punctuation is written as the table of punctuation says. -/
lemma text?_of_spelling {cs : List Char} (h : k.isPunctuation = true)
    (hspelling : k.spelling? = some cs) : k.text? = some (String.ofList cs) := by
  have hall : ∀ entry ∈ keywords, entry.2.isPunctuation = false := by decide
  have hnone : k.keywordText? = none := by
    rw [keywordText?, Option.map_eq_none_iff, List.find?_eq_none]
    intro entry hentry he
    obtain rfl : entry.2 = k := by simpa using he
    rw [hall entry hentry] at h
    cases h
  obtain ⟨x, hx, rfl⟩ := Option.map_eq_some_iff.1 hspelling
  rw [text?, hnone, hx, String.ofList_toList]
  rfl

lemma mem_of_ofWord (hk : k.isKeyword = true) (h : ofWord w = k) : (w, k) ∈ keywords := by
  unfold ofWord ofWord? at h
  cases hlookup : keywords.lookup w with
  | none =>
    rw [hlookup] at h
    subst h
    cases hk
  | some k' =>
    rw [hlookup] at h
    obtain ⟨l₁, l₂, hl, -⟩ := List.lookup_eq_some_iff.1 hlookup
    rw [hl, ← h]
    simp

/-- The table has a word exactly once, and it is written as its kind is. -/
lemma text?_of_mem (h : (w, k) ∈ keywords) : k.text? = some w := by
  have hall : ∀ entry ∈ keywords, entry.2.text? = some entry.1 := by decide +kernel
  exact hall _ h

/-- **A word is a keyword exactly if the table has it.** -/
lemma isKeyword_ofWord (w : String) : (ofWord w).isKeyword = true ↔ ∃ k, (w, k) ∈ keywords := by
  have hall : ∀ entry ∈ keywords, entry.2.isKeyword = true := by decide
  refine ⟨fun h => ⟨_, mem_of_ofWord h rfl⟩, fun ⟨k, hk⟩ => ?_⟩
  unfold ofWord ofWord?
  cases hlookup : keywords.lookup w with
  | none => simpa using List.lookup_eq_none_iff.1 hlookup (w, k) hk
  | some k' =>
    obtain ⟨l₁, l₂, hl, -⟩ := List.lookup_eq_some_iff.1 hlookup
    exact hall (w, k') (by rw [hl]; simp)

end TokenKind

/-- A word is no punctuation. -/
lemma TokenKind.not_isPunctuation_of_word {k : TokenKind} (h : k.isIdentifierOrKeyword = true) :
    k.isPunctuation = false := by
  revert h
  cases k <;> decide

/-! ### What a scan reads -/

lemma Cursor.lexeme_of_opens {c : Cursor} (v : Variant) (h : Word.opens c.rest = true) :
    c.lexeme v = Word.lexeme c.rest := by
  rcases Cursor.lexeme_cases v c with ⟨hrest, -⟩ | ⟨l, -, hs, -⟩ | ⟨x, cs, hrest, ht⟩ |
    ⟨x, cs, hrest, -, hl⟩
  · rw [hrest] at h
    cases h
  · unfold Lexeme.shebang? at hs
    split at hs
    · next hrest =>
      rw [hrest] at h
      cases h
    · cases hs
  · rw [Lexeme.trivia?_of_opens (hrest ▸ h)] at ht
    cases ht
  · rw [hl, hrest, Lexeme.token_of_opens v (hrest ▸ h)]

namespace Scanner

variable {s : Scanner}

/-- The text of a token of `n` characters. -/
lemma tokenText_of_advance {t : Scanner} {n : Nat} (h : t.cursor = t.start.advance n) :
    t.tokenText = String.ofList (t.start.rest.take n) := by
  have hbytes : t.tokenEnd - t.tokenStart = Text.bytes (t.start.rest.take n) := by
    rw [tokenEnd, h]
    exact Nat.add_sub_cancel_left ..
  have htake := Text.takeBytes?_append (t.start.rest.take n) (t.start.rest.drop n)
  rw [List.take_append_drop] at htake
  rw [tokenText, hbytes, htake, Option.getD_some]

/-- The text from the start of the token at hand on. -/
def ahead (t : Scanner) : List Char := Text.suffixAt t.source t.tokenStart

/-- The kind of the token at hand and the text that it has been read off agree. -/
structure Matches (t : Scanner) : Prop where
  /-- Punctuation and keywords are written as the tables say. -/
  written : t.kind.isPunctuation = true ∨ t.kind.isKeyword = true →
    t.kind.text? = some t.tokenText
  /-- Punctuation is the longest of the table that may be read. -/
  longest : t.kind.isPunctuation = true →
    Punctuation.MayOpen (t.variant == .jsx) t.ahead t.tokenText.toList ∧
      Punctuation.Longest (t.variant == .jsx) t.ahead t.tokenText.toList.length
  /-- A `>` that is read again is the longest operator of the table. -/
  greater : t.kind = .greaterThan →
    t.rescanGreater.kind.text? = some t.rescanGreater.tokenText ∧
      t.rescanGreater.tokenText.toList <+: t.ahead ∧
      ∀ entry ∈ TokenKind.punctuators, entry.2.toList <+: t.ahead →
        entry.2.toList.length ≤ t.rescanGreater.tokenText.toList.length
  /-- A word without escapes is a keyword exactly if the table has it. -/
  word : Word.opens t.ahead = true → '\\' ∉ t.tokenText.toList →
    t.tokenText.toList = t.ahead.takeWhile Text.isIdentifierPart ∧
      (t.kind.isKeyword = true ↔ ∃ k, (t.tokenText, k) ∈ TokenKind.keywords) ∧
      (t.kind.isKeyword = false → t.kind = .identifier)
  /-- A word with an escape is an identifier. -/
  escaped : Word.opens t.ahead = true → '\\' ∈ t.tokenText.toList → t.kind = .identifier

variable {t : Scanner} {cs : List Char} {n : Nat}

lemma ahead_eq (hon : t.start.On t.source) : t.ahead = t.start.rest := hon.suffixAt

/-- A token that is neither punctuation nor a word matches its text. -/
lemma matches_of_other (hk : t.kind.isPunctuation = false ∧ t.kind.isKeyword = false)
    (hword : Word.opens t.ahead = false) : t.Matches where
  written h := by simp [hk] at h
  longest h := by simp [hk] at h
  greater h := by
    rw [h] at hk
    cases hk.1
  word h := by simp [hword] at h
  escaped h := by simp [hword] at h

/-- A `>` is read again as the longest operator. -/
lemma rescanGreater_longest (hon : t.start.On t.source) (hk : t.kind = .greaterThan)
    (hrest : t.start.rest = '>' :: cs) (hcursor : t.cursor = t.start.advance 1) :
    t.rescanGreater.kind.text? = some t.rescanGreater.tokenText ∧
      t.rescanGreater.tokenText.toList <+: t.ahead ∧
      ∀ entry ∈ TokenKind.punctuators, entry.2.toList <+: t.ahead →
        entry.2.toList.length ≤ t.rescanGreater.tokenText.toList.length := by
  have hcs : t.cursor.rest = cs := by simp [hcursor, Cursor.advance, hrest]
  have hkind : t.rescanGreater.kind = (Punctuation.greaterRest cs).1 := by
    simp [rescanGreater, hk, hcs]
  have hpunctuation : (Punctuation.greaterRest cs).1.isPunctuation = true := by
    unfold Punctuation.greaterRest
    split <;> (try split) <;> rfl
  have hstart : t.rescanGreater.start = t.start := by simp [rescanGreater, hk]
  have hadvance : t.rescanGreater.cursor =
      t.rescanGreater.start.advance (1 + (Punctuation.greaterRest cs).2) := by
    rw [hstart, ← advance_advance, ← hcursor]
    simp [rescanGreater, hk, hcs]
  have htext := tokenText_of_advance hadvance
  rw [hstart, hrest] at htext
  rw [hkind, htext, ahead_eq hon, hrest, String.toList_ofList]
  refine ⟨TokenKind.text?_of_spelling hpunctuation (Punctuation.spells_greaterRest cs),
    List.take_prefix _ _, fun entry hentry hopens => ?_⟩
  rw [List.length_take]
  exact Nat.le_min.2 ⟨Punctuation.greaterRest_longest cs entry hentry hopens, hopens.length_le⟩

/-- Punctuation matches its text. -/
lemma matches_of_punctuation {c : Char} {x : TokenKind × Nat} (hon : t.start.On t.source)
    (hrest : t.start.rest = c :: cs) (hread : Punctuation.read? (t.variant == .jsx) c cs = some x)
    (hk : t.kind = x.1) (hcursor : t.cursor = t.start.advance x.2) : t.Matches := by
  have htext := tokenText_of_advance hcursor
  have hahead := ahead_eq hon
  rw [hrest] at htext hahead
  have hpunctuation : x.1.isPunctuation = true := by
    obtain ⟨rfl, -⟩ | hproper := Punctuation.read?_proper hread
    · rfl
    · exact hproper.1
  have hspells := Punctuation.read?_spells hread
  have hword : Word.opens t.ahead = false := by
    rw [hahead, Bool.eq_false_iff]
    intro hopens
    rw [Punctuation.read?_of_opens hopens] at hread
    cases hread
  exact {
    written := fun _ => by rw [hk, htext, TokenKind.text?_of_spelling hpunctuation hspells]
    longest := fun _ => by
      rw [hahead, htext, String.toList_ofList]
      refine ⟨Punctuation.read?_mayOpen hread, fun entry hentry hopen => ?_⟩
      rw [List.length_take]
      exact Nat.le_min.2 ⟨Punctuation.read?_longest hread entry hentry hopen,
        hopen.opens.length_le⟩
    greater := fun hgreater => by
      have hone : ['>'] = (c :: cs).take x.2 := by
        rw [Punctuation.Spells, ← hk, hgreater] at hspells
        exact Option.some.inj hspells
      obtain ⟨ds, hds⟩ := hone ▸ List.take_prefix x.2 (c :: cs)
      obtain rfl : '>' = c := (List.cons.inj hds).1
      cases hread
      exact rescanGreater_longest hon hgreater hrest hcursor
    word := fun h => by simp [hword] at h
    escaped := fun h => by simp [hword] at h }

/-- A word matches its text. -/
lemma matches_of_word (hon : t.start.On t.source) (hk : t.kind = (Word.lexeme t.start.rest).kind)
    (hcursor : t.cursor = t.start.advance (Word.parts t.start.rest).length) : t.Matches := by
  have htext := tokenText_of_advance hcursor
  have hescape := Word.unicodeEscape_parts t.start.rest
  have hkind : t.kind.isIdentifierOrKeyword = true := by
    rw [hk]
    simp only [Word.lexeme]
    split
    · rfl
    · exact TokenKind.isIdentifierOrKeyword_ofWord _
  have hpunctuation := TokenKind.not_isPunctuation_of_word hkind
  -- without escapes the word is looked up as it stands in the text
  have hplain (h : '\\' ∉ t.tokenText.toList) :
      t.tokenText.toList = t.start.rest.takeWhile Text.isIdentifierPart ∧
        t.kind = .ofWord t.tokenText := by
    rw [htext, String.toList_ofList, ← hescape, Bool.not_eq_true] at h
    obtain ⟨hvalue, htake⟩ := Word.parts_of_plain t.start.rest h
    rw [htext, String.toList_ofList, hk, htake]
    exact ⟨rfl, by simp only [Word.lexeme, h, hvalue, Bool.false_eq_true, if_false]⟩
  have hescaped (h : '\\' ∈ t.tokenText.toList) : t.kind = .identifier := by
    rw [htext, String.toList_ofList, ← hescape] at h
    simp only [hk, Word.lexeme, h, if_true]
  exact {
    written := fun h => by
      have hkeyword := h.resolve_left (by simp [hpunctuation])
      have hno : '\\' ∉ t.tokenText.toList := fun h => by
        rw [hescaped h] at hkeyword
        cases hkeyword
      exact TokenKind.text?_of_mem (TokenKind.mem_of_ofWord hkeyword (hplain hno).2.symm)
    longest := fun h => by simp [hpunctuation] at h
    greater := fun h => by
      rw [h] at hpunctuation
      cases hpunctuation
    word := fun _ h => by
      obtain ⟨hwhole, hof⟩ := hplain h
      refine ⟨(ahead_eq hon).symm ▸ hwhole, by rw [hof, TokenKind.isKeyword_ofWord], fun hno => ?_⟩
      simpa [TokenKind.isIdentifierOrKeyword, hno] using hkind
    escaped := fun _ h => hescaped h }

/-- **What is read at a place matches its text.** -/
lemma accept_matches {d : Cursor} (flags : TokenFlags) (hon : d.On s.source) :
    (s.accept d (d.lexeme s.variant) flags).Matches := by
  by_cases hopens : Word.opens d.rest = true
  · rw [Cursor.lexeme_of_opens s.variant hopens]
    exact matches_of_word hon rfl rfl
  have hahead : Word.opens (s.accept d (d.lexeme s.variant) flags).ahead = false := by
    rw [ahead_eq hon]
    exact Bool.eq_false_iff.2 hopens
  have htrivia {k : TokenKind} (h : k.isTrivia = true) :
      k.isPunctuation = false ∧ k.isKeyword = false := by
    revert h
    cases k <;> decide
  rcases Cursor.lexeme_cases s.variant d with ⟨-, hl⟩ | ⟨l, -, hs, hl⟩ | ⟨x, cs, -, ht⟩ |
    ⟨x, cs, hrest, -, hl⟩
  · exact matches_of_other (by rw [hl]; exact ⟨rfl, rfl⟩) hahead
  · exact matches_of_other (hl ▸ htrivia (shebang?_lexeme hs).1) hahead
  · exact matches_of_other (htrivia (Lexeme.trivia?_isTrivia ht).kind) hahead
  · rcases Lexeme.token_cases s.variant x cs with ⟨y, hread, htoken⟩ | h | h
    · rw [hl, htoken]
      exact matches_of_punctuation hon hrest hread rfl rfl
    · exact absurd (hrest ▸ h) hopens
    · exact matches_of_other (hl ▸ h) hahead

/-- **The kind of a token and its text agree**, from any boundary of any text on. -/
theorem scan_matches (s : Scanner) (p : Nat) (hp : Text.IsBoundary s.source p) :
    (s.reset p).scan.Matches := by
  have hon : (s.reset p).cursor.On s.source := by
    simp only [reset, Nat.min_eq_left hp.le_bytes]
    exact Cursor.on_ofOffset hp
  obtain ⟨ls, d, hpasses, hscan, -⟩ := scan_eq (s.reset p)
  rw [hscan]
  exact accept_matches _ (hpasses.on hon)

/-- A `>` before other operators. -/
theorem shift_matches :
    let t := ((ofSource "a>>>=b?.5".toList .standard true).reset 1).scan
    t.kind = .greaterThan ∧ t.rescanGreater.kind = .greaterThanGreaterThanGreaterThanEquals ∧
      t.Matches :=
  ⟨by decide +kernel, by decide +kernel,
    scan_matches (ofSource "a>>>=b?.5".toList .standard true) 1 (by decide)⟩

end Scanner

end EstreeLint
