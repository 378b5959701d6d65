import EstreeLint.Proofs.Text.Slice
import EstreeLint.Proofs.Token.Scans
import EstreeLint.Proofs.Token.Seam

/-!
The flag for a line break before a token. Trivia sets it exactly if it holds a line break, and no
token sets it for itself, so behind a scan it tells whether the text that the scan has passed over
holds one.
-/

namespace EstreeLint

/-! ### Tokens -/

namespace Quoted

variable {b : Body} {value : List Char} {n : Nat} {flags : TokenFlags}

lemma prepend_breaks (h : flags.precedingLineBreak = false)
    (hb : b.flags.precedingLineBreak = false) :
    (b.prepend value n flags).flags.precedingLineBreak = false := by
  simp [Body.prepend, h, hb]

lemma unicodeEscape_breaks (cs : List Char) :
    (unicodeEscape cs).flags.precedingLineBreak = false := by
  unfold unicodeEscape
  dsimp only
  split <;> rfl

lemma hexEscape_breaks (cs : List Char) : (hexEscape cs).flags.precedingLineBreak = false := by
  unfold hexEscape
  split <;> rfl

lemma escape_breaks (isTemplate : Bool) (cs : List Char) :
    (escape isTemplate cs).flags.precedingLineBreak = false := by
  unfold escape
  split
  · rfl
  split
  · rfl
  split
  · rfl
  split
  · rfl
  split
  · exact unicodeEscape_breaks _
  split
  · exact hexEscape_breaks _
  split
  · rfl
  split <;> rfl

lemma stringBody_breaks (quote : Char) (verbatim : Bool) (cs : List Char) :
    (stringBody quote verbatim cs).flags.precedingLineBreak = false := by
  fun_induction stringBody quote verbatim cs with
  | case3 c cs _ _ ih => exact prepend_breaks rfl ih
  | case4 c cs _ _ _ e ih => exact prepend_breaks (escape_breaks false cs) ih
  | case6 c cs _ _ _ _ ih => exact prepend_breaks rfl ih
  | _ => rfl

lemma templateBody_breaks (cs : List Char) :
    (templateBody cs).1.flags.precedingLineBreak = false := by
  fun_induction templateBody cs with
  | case4 c cs _ _ _ e b more hbody ih =>
    rw [hbody] at ih
    exact prepend_breaks (escape_breaks true cs) ih
  | case5 c cs _ _ _ _ n b more hbody ih =>
    rw [hbody] at ih
    exact prepend_breaks rfl ih
  | case6 c cs _ _ _ _ b more hbody ih =>
    rw [hbody] at ih
    exact prepend_breaks rfl ih
  | _ => rfl

end Quoted

namespace Word

lemma parts_breaks (cs : List Char) : (parts cs).flags.precedingLineBreak = false := by
  fun_induction parts cs with
  | case2 c cs _ ih => simp [Parts.cons, ih]
  | case3 c _ _ cs e d _ _ ih => simp [Parts.cons, ih]
  | _ => rfl

end Word

namespace Number

lemma radixOf?_breaks {c : Char} {x : (Char → Bool) × TokenFlags} (h : radixOf? c = some x) :
    x.2.precedingLineBreak = false := by
  unfold radixOf? at h
  split at h
  · cases h; rfl
  split at h
  · cases h; rfl
  split at h
  · cases h; rfl
  · cases h

lemma magnitude_breaks (cs : List Char) : (magnitude cs).2.precedingLineBreak = false := by
  unfold magnitude
  split
  · split
    · next hradix => exact radixOf?_breaks hradix
    · split <;> rfl
  · rfl

end Number

namespace Lexeme

lemma token_breaks (v : Variant) (c : Char) (cs : List Char) :
    (token v c cs).flags.precedingLineBreak = false := by
  unfold token
  split
  · exact Quoted.stringBody_breaks c false cs
  split
  · exact Quoted.templateBody_breaks cs
  split
  · have hnumber := Number.magnitude_breaks (c :: cs)
    simp only [Number.lexeme]
    split <;> exact hnumber
  split
  · exact Word.parts_breaks cs
  split
  · rfl
  split
  · exact Word.parts_breaks (c :: cs)
  · rfl

/-- A line comment does not reach the line break. -/
lemma takeWhile_breaks (cs : List Char) :
    (cs.takeWhile (!Text.isLineBreak ·)).any Text.isLineBreak = false :=
  List.any_eq_false.2 fun d hd => by
    simpa using List.all_eq_true.1 (List.all_takeWhile (p := (!Text.isLineBreak ·))) d hd

lemma blockComment_breaks (cs : List Char) :
    (('/' :: '*' :: cs).take (blockComment cs).length).any Text.isLineBreak =
      (blockComment cs).flags.precedingLineBreak := by
  unfold blockComment
  split
  · next body h =>
    obtain ⟨after, rfl, -⟩ := Trivia.blockBody?_eq_append h
    have hwhole : ('/' :: '*' :: (body ++ '*' :: '/' :: after)).take (body.length + 4) =
        '/' :: '*' :: (body ++ ['*', '/']) := by
      have hsplit : '/' :: '*' :: (body ++ '*' :: '/' :: after) =
          ('/' :: '*' :: (body ++ ['*', '/'])) ++ after := by simp
      rw [hsplit, List.take_left' (by simp)]
    simp only [hwhole, List.any_cons, List.any_append, List.any_nil]
    simp [show Text.isLineBreak '/' = false from rfl, show Text.isLineBreak '*' = false from rfl]
  · rw [List.take_of_length_le (by simp)]
    rfl

lemma shebang?_breaks {cs : List Char} {l : Lexeme} (h : shebang? cs = some l) :
    (cs.take l.length).any Text.isLineBreak = l.flags.precedingLineBreak := by
  unfold shebang? at h
  split at h
  · next ds =>
    cases h
    simp only [take_line, List.any_cons, takeWhile_breaks]
    rfl
  · cases h

/-- Trivia is flagged exactly if it holds a line break. -/
lemma trivia?_breaks {c : Char} {cs : List Char} {l : Lexeme} (h : trivia? c cs = some l) :
    ((c :: cs).take l.length).any Text.isLineBreak = l.flags.precedingLineBreak := by
  rcases trivia?_cases h with ⟨u, v, hcs, hu⟩ | ⟨ds, hcs, rfl⟩ | ⟨ds, hcs, rfl⟩
  · rw [hcs, hu.length, List.take_left, hu.breaks]
  · rw [hcs]
    simp only [take_line, List.any_cons, takeWhile_breaks]
    rfl
  · rw [hcs]
    exact blockComment_breaks ds

end Lexeme

namespace Cursor

variable {v : Variant} {c d : Cursor} {ls : List Lexeme}

lemma lexeme_breaks (v : Variant) (c : Cursor) :
    if (c.lexeme v).kind.isTrivia then
      (c.rest.take (c.lexeme v).length).any Text.isLineBreak =
        (c.lexeme v).flags.precedingLineBreak
    else (c.lexeme v).flags.precedingLineBreak = false := by
  rcases lexeme_cases v c with ⟨-, hl⟩ | ⟨l, -, hs, hl⟩ | ⟨x, cs, hrest, ht⟩ | ⟨x, cs, -, -, hl⟩
  · rw [hl]
    rfl
  · rw [hl, if_pos (Scanner.shebang?_lexeme hs).1]
    exact Lexeme.shebang?_breaks hs
  · rw [if_pos (Lexeme.trivia?_isTrivia ht).kind, hrest]
    exact Lexeme.trivia?_breaks ht
  · rw [hl, if_neg (by simp [Lexeme.isTrivia_token])]
    exact Lexeme.token_breaks v x cs

/-- The pieces of trivia between two places make up the text between them, and their flags tell
whether it holds a line break. -/
lemma Passes.exists_text (h : Passes v c ls d) (flags : TokenFlags) :
    ∃ u, c.rest = u ++ d.rest ∧ d.pos = c.pos + Text.bytes u ∧
      (flags.gather ls).precedingLineBreak =
        (flags.precedingLineBreak || u.any Text.isLineBreak) := by
  induction h generalizing flags with
  | here c => exact ⟨[], rfl, rfl, by simp [TokenFlags.gather]⟩
  | @piece c d ls htrivia _ ih =>
    obtain ⟨u, hrest, hpos, hflags⟩ := ih (flags ∪ (c.lexeme v).flags)
    have hbreaks := lexeme_breaks v c
    rw [if_pos htrivia] at hbreaks
    refine ⟨c.rest.take (c.lexeme v).length ++ u, ?_, ?_, ?_⟩
    · rw [List.append_assoc, ← hrest]
      exact (List.take_append_drop _ _).symm
    · rw [hpos, Text.bytes_append, Cursor.advance, Nat.add_assoc]
    · rw [List.any_append, hbreaks, ← Bool.or_assoc]
      exact hflags

end Cursor

namespace Scanner

/-- **Behind a scan that skips trivia the flag tells whether the text passed over holds a line
break.** -/
theorem scan_breaks {text : Source} {s : Scanner} (hskip : s.skipTrivia = true)
    (hon : s.cursor.On text) :
    (s.scan.flags.precedingLineBreak = true ↔
      ∃ c ∈ Text.slice text s.scan.fullStart s.scan.tokenStart, Text.isLineBreak c = true) := by
  obtain ⟨ls, d, hpasses, hscan, hstop⟩ := scan_eq s
  obtain ⟨before, htext, hpos⟩ := hon
  obtain ⟨u, hrest, hend, hflags⟩ := hpasses.exists_text {}
  have hlexeme := Cursor.lexeme_breaks s.variant d
  rw [hskip, if_pos rfl] at hstop
  rw [hstop, if_neg (by simp)] at hlexeme
  have hslice : Text.slice text s.cursor.pos d.pos = u := by
    rw [htext, hrest, hend, hpos, Text.slice, Text.slice?_append, Option.getD_some]
  have hflag : s.scan.flags.precedingLineBreak = u.any Text.isLineBreak := by
    rw [hscan]
    simp only [accept, TokenFlags.precedingLineBreak_union, hlexeme, hflags, Bool.or_false]
    rfl
  have hfull : s.scan.fullStart = s.cursor.pos := scan_fullStart s
  have hstart : s.scan.tokenStart = d.pos := by rw [hscan]; rfl
  rw [hflag, hfull, hstart, hslice, List.any_eq_true]

end Scanner

end EstreeLint
