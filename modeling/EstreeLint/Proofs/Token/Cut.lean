import EstreeLint.Proofs.Token.Placed
import EstreeLint.Proofs.Token.Seam

/-!
A clear scanner: the token at hand, and the trivia before it, start and stop at cuts of the text,
and punctuation is written as its kind is. Every way to read a token, or to read it again, keeps a
scanner clear, whatever the text is.
-/

namespace EstreeLint

open Text (IsCut Seam SeamAt)

/-! ### Spelling -/

namespace TokenKind

/-- The characters that punctuation of a kind is written with. -/
def spelling? (k : TokenKind) : Option (List Char) := k.punctuationText?.map String.toList

lemma not_mem_spelling {k : TokenKind} {w : List Char} (h : k.spelling? = some w) : '\r' ∉ w := by
  have hall : ∀ entry ∈ punctuators, '\r' ∉ entry.2.toList := by decide
  obtain ⟨s, hs, rfl⟩ := Option.map_eq_some_iff.1 h
  obtain ⟨l₁, l₂, e, -⟩ := List.lookup_eq_some_iff.1 hs
  exact hall (k, s) (by rw [e]; simp)

lemma spelling?_ofWord (w : String) : (ofWord w).spelling? = none := by
  have hall : ∀ entry ∈ keywords, entry.2.spelling? = none := by decide
  unfold ofWord ofWord?
  cases h : keywords.lookup w with
  | none => rfl
  | some k =>
    obtain ⟨l₁, l₂, e, -⟩ := List.lookup_eq_some_iff.1 h
    exact hall (w, k) (by rw [e]; simp)

end TokenKind

namespace Punctuation

/-- The characters at the front are the spelling of the kind that is read off them. -/
def Spells (cs : List Char) (x : TokenKind × Nat) : Prop := x.1.spelling? = some (cs.take x.2)

variable {c : Char} {cs : List Char}

lemma spells_doubled {one two oneEquals twoEquals : TokenKind} (h₁ : one.spelling? = some [c])
    (h₂ : two.spelling? = some [c, c]) (h₃ : oneEquals.spelling? = some [c, '='])
    (h₄ : twoEquals.spelling? = some [c, c, '=']) (cs : List Char) :
    Spells (c :: cs) (doubled c one two oneEquals twoEquals cs) := by
  unfold doubled Spells
  split <;> (try split) <;> (try split) <;> simp_all

lemma spells_withEquals {one oneEquals : TokenKind} (h₁ : one.spelling? = some [c])
    (h₂ : oneEquals.spelling? = some [c, '=']) (cs : List Char) :
    Spells (c :: cs) (withEquals one oneEquals cs) := by
  unfold withEquals Spells
  cases cs <;> split <;> simp_all

lemma spells_stepOrEquals {one two oneEquals : TokenKind} (h₁ : one.spelling? = some [c])
    (h₂ : two.spelling? = some [c, c]) (h₃ : oneEquals.spelling? = some [c, '='])
    (cs : List Char) : Spells (c :: cs) (stepOrEquals c one two oneEquals cs) := by
  unfold stepOrEquals
  split
  · next h =>
    obtain ⟨ds, rfl⟩ := List.head?_eq_some_iff.1 (by simpa using h)
    exact h₂
  · exact spells_withEquals h₁ h₃ cs

lemma spells_afterQuestion (cs : List Char) : Spells ('?' :: cs) (afterQuestion cs) := by
  unfold afterQuestion Spells
  split
  · split <;> rfl
  · split
    · next h =>
      obtain ⟨ds, rfl⟩ := List.head?_eq_some_iff.1 (by simpa using h)
      rfl
    · rfl
  · rfl

lemma spells_afterLess (jsx : Bool) (cs : List Char) : Spells ('<' :: cs) (afterLess jsx cs) := by
  unfold afterLess Spells
  split
  · split
    · next h =>
      obtain ⟨ds, rfl⟩ := List.head?_eq_some_iff.1 (by simpa using h)
      rfl
    · rfl
  · rfl
  · split <;> rfl
  · rfl

/-- **Punctuation is written as its kind is.** -/
lemma read?_spells {jsx : Bool} {x : TokenKind × Nat} (h : read? jsx c cs = some x) :
    Spells (c :: cs) x := by
  unfold read? at h
  split at h
  all_goals first | (cases h; done) | obtain rfl := Option.some.inj h
  all_goals first
    | rfl
    | exact spells_afterLess jsx cs
    | exact spells_afterQuestion cs
    | exact spells_withEquals rfl rfl cs
    | exact spells_stepOrEquals rfl rfl rfl cs
    | exact spells_doubled rfl rfl rfl rfl cs
    | skip
  · unfold afterExclamation Spells
    split <;> rfl
  · unfold afterDot Spells
    split <;> rfl
  · unfold afterEquals Spells
    split <;> rfl

lemma spells_greaterRest (cs : List Char) :
    Spells ('>' :: cs) ((greaterRest cs).1, 1 + (greaterRest cs).2) := by
  unfold greaterRest Spells
  split
  · split
    · next h =>
      obtain ⟨ds, rfl⟩ := List.head?_eq_some_iff.1 (by simpa using h)
      rfl
    · rfl
  all_goals rfl

end Punctuation

/-! ### Lexemes -/

namespace Lexeme

/-- What is read off the front of a text ends at a seam, and is written as its kind is. -/
structure Reads (cs : List Char) (l : Lexeme) : Prop where
  seam : SeamAt cs l.length
  spells : ∀ w, l.kind.spelling? = some w → cs.take l.length = w

variable {c : Char} {cs : List Char} {l : Lexeme}

lemma Reads.of_none (h : SeamAt cs l.length) (hk : l.kind.spelling? = none) : Reads cs l :=
  ⟨h, fun w hw => absurd (hk.symm.trans hw) (by simp)⟩

lemma blockComment_seamAt (cs : List Char) :
    SeamAt ('/' :: '*' :: cs) (blockComment cs).length := by
  unfold blockComment
  split
  · next body h =>
    obtain ⟨after, hcs, -⟩ := Trivia.blockBody?_eq_append h
    have hend : Seam ('/' :: '*' :: body ++ ['*', '/']) after := fun hs => by
      simp [List.getLast?_cons, List.getLast?_append] at hs
    have hat := Text.seamAt_append hend
    rw [hcs]
    simpa [Nat.add_assoc] using hat
  · refine Text.seam_of_head ?_
    simp

lemma trivia?_reads (h : trivia? c cs = some l) : Reads (c :: cs) l := by
  unfold trivia? at h
  split at h
  · next hc =>
    cases h
    obtain ⟨ds, rfl⟩ := List.head?_eq_some_iff.1
      (by simpa using (Bool.and_eq_true_iff.1 hc).2)
    exact .of_none (fun hs => absurd hs.1 (by simp)) rfl
  split at h
  · next hn hc =>
    cases h
    refine .of_none (Text.seamAt_one fun e hs => hn ?_) rfl
    simp [e, hs]
  next hbreak =>
  have hne : c ≠ '\r' := by
    rintro rfl
    exact hbreak rfl
  split at h
  · cases h
    exact .of_none ((Text.seamAt_takeWhile isAsciiBlank (by decide) cs).cons hne) rfl
  split at h
  · cases h
    exact .of_none (Text.seamAt_one fun e => absurd e hne) rfl
  split at h
  · next hslash =>
    obtain rfl : c = '/' := by simpa using hslash
    split at h
    · next ds _ =>
      cases h
      refine .of_none ?_ rfl
      have hline := Text.seamAt_takeWhile (!Text.isLineBreak ·) (by decide) ds
      have hall := (hline.cons (c := '/') (by decide)).cons (c := '/') (by decide)
      rwa [← Nat.add_assoc] at hall
    · cases h
      refine .of_none (blockComment_seamAt _) ?_
      unfold blockComment
      split <;> rfl
    · cases h
  · cases h

lemma word_reads (cs : List Char) : Reads cs (Word.lexeme cs) := by
  refine .of_none (Word.parts_seamAt cs) ?_
  simp only [Word.lexeme]
  split
  · rfl
  · exact TokenKind.spelling?_ofWord _

lemma stringLexeme_reads {quote : Char} (hq : quote ≠ '\r') (verbatim : Bool) (cs : List Char) :
    Reads (quote :: cs) (Quoted.stringLexeme quote verbatim cs) :=
  .of_none ((Quoted.stringBody_seamAt hq verbatim cs).1.cons hq) rfl

/-- **What is read off the front of a text ends at a seam.** -/
theorem read_reads (v : Variant) (c : Char) (cs : List Char) : Reads (c :: cs) (read v c cs) := by
  unfold read
  cases ht : trivia? c cs with
  | some l => exact trivia?_reads ht
  | none =>
    have hne : c ≠ '\r' := by
      rintro rfl
      unfold trivia? at ht
      split at ht <;> cases ht
    rw [Option.getD_none]
    unfold token
    split
    · exact stringLexeme_reads hne false cs
    split
    · refine .of_none ((Quoted.templateBody_seamAt cs).cons hne) ?_
      simp only [Quoted.templateStart]
      split <;> rfl
    split
    · refine .of_none (Number.lexeme_seamAt (c :: cs)) ?_
      simp only [Number.lexeme]
      split <;> rfl
    split
    · exact .of_none ((Word.parts_seamAt cs).cons hne) rfl
    split
    · next k n hread =>
      have hspells := Punctuation.read?_spells hread
      refine ⟨Text.seam_of_not_mem (TokenKind.not_mem_spelling hspells), fun w hw => ?_⟩
      exact Option.some.inj (hspells.symm.trans hw)
    split
    · exact word_reads _
    · exact .of_none (Text.seamAt_one fun e => absurd e hne) rfl

lemma shebang?_reads (h : shebang? cs = some l) : Reads cs l := by
  unfold shebang? at h
  split at h
  · next ds =>
    cases h
    have hline := Text.seamAt_takeWhile (!Text.isLineBreak ·) (by decide) ds
    have hall := (hline.cons (c := '!') (by decide)).cons (c := '#') (by decide)
    rw [← Nat.add_assoc] at hall
    exact .of_none hall rfl
  · cases h

end Lexeme

/-! ### Cursors -/

namespace Cursor

/-- The cursor stands at a cut of the text. -/
def Cuts (text : Source) (c : Cursor) : Prop :=
  ∃ u, text = u ++ c.rest ∧ c.pos = Text.bytes u ∧ Seam u c.rest

variable {text : Source} {c : Cursor} {n : Nat}

lemma Cuts.on (h : c.Cuts text) : c.On text := by
  obtain ⟨u, htext, hpos, -⟩ := h
  exact ⟨u, htext, hpos⟩

lemma Cuts.isCut (h : c.Cuts text) : IsCut text c.pos := by
  obtain ⟨u, htext, hpos, hseam⟩ := h
  exact ⟨u, c.rest, htext, hpos, hseam⟩

lemma cuts_front (text : Source) : Cuts text ⟨0, text⟩ := ⟨[], rfl, rfl, by simp [Seam]⟩

lemma cuts_ofOffset {p : Nat} (h : IsCut text p) : (ofOffset text p).Cuts text := by
  obtain ⟨u, v, rfl, rfl, hseam⟩ := h
  have hrest : (ofOffset (u ++ v) (Text.bytes u)).rest = v := by
    simp [ofOffset, Text.suffixAt, Text.dropBytes?_append]
  exact ⟨u, by rw [hrest], rfl, by rwa [hrest]⟩

lemma Cuts.advance (h : c.Cuts text) (hn : SeamAt c.rest n) : (c.advance n).Cuts text := by
  obtain ⟨u, htext, hpos, hseam⟩ := h
  refine ⟨u ++ c.rest.take n, ?_, ?_, .append (fun hnil => ?_) hn⟩
  · rw [htext]
    simp [Cursor.advance]
  · simp [Cursor.advance, hpos, Text.bytes_append]
  · rcases List.take_eq_nil_iff.1 hnil with rfl | hrest
    · exact hseam
    · simp [Cursor.advance, hrest, Seam]

lemma advance_length_take (c : Cursor) (n : Nat) :
    c.advance (c.rest.take n).length = c.advance n := by
  rcases Nat.le_total n c.rest.length with h | h
  · rw [List.length_take_of_le h]
  · simp [Cursor.advance, List.take_of_length_le h, List.drop_of_length_le h]

end Cursor

/-! ### Scanners -/

namespace Scanner

variable {text : Source} {σ : Scanner}

/-- The token and the trivia before it are cut out of the text. The token starts right where the
trivia stops, unless it is text between tags, which is kept whole. -/
structure Clear (text : Source) (σ : Scanner) : Prop where
  source : σ.source = text
  skips : σ.skipTrivia = true
  placed : σ.Placed
  fullStart : IsCut text σ.fullStart
  start : σ.start.Cuts text
  cursor : σ.cursor.Cuts text
  written : ∀ w, σ.kind.spelling? = some w →
    w <+: σ.start.rest ∧ σ.cursor = σ.start.advance w.length
  front : σ.kind.isElementText = false → Trivia.skip text σ.fullStart = σ.tokenStart

lemma Clear.tokenEnd_eq {w : List Char} (h : σ.Clear text) (hw : σ.kind.spelling? = some w) :
    σ.tokenEnd = σ.tokenStart + Text.bytes w := by
  obtain ⟨hopen, hcursor⟩ := h.written w hw
  simp only [tokenEnd, tokenStart, hcursor, Cursor.advance]
  rw [← List.prefix_iff_eq_take.1 hopen]

/-! ### The next token -/

lemma accept_clear {start : Cursor} {l : Lexeme} (flags : TokenFlags) (hsrc : σ.source = text)
    (hskip : σ.skipTrivia = true) (hfull : IsCut text σ.fullStart) (hstart : start.Cuts text)
    (hle : σ.fullStart ≤ start.pos) (hl : l.Reads start.rest)
    (hclose : l.kind = .closeBrace → start.rest.head? = some '\x7d')
    (hfront : l.kind.isElementText = false → Trivia.skip text σ.fullStart = start.pos) :
    (σ.accept start l flags).Clear text where
  source := hsrc
  skips := hskip
  placed := accept_placed flags (hsrc ▸ hstart.on) hle hclose
  fullStart := hfull
  start := hstart
  cursor := hstart.advance hl.seam
  written w hw := by
    have htake := hl.spells w hw
    refine ⟨htake ▸ List.take_prefix _ _, ?_⟩
    rw [← htake]
    exact (start.advance_length_take l.length).symm
  front := hfront

/-- **A scan from inside trivia on gives a clear scanner**, with the token where the trivia
stops. -/
theorem scanFrom_clear {pos : Nat} {cs : List Char} {flags : TokenFlags} (hsrc : σ.source = text)
    (hskip : σ.skipTrivia = true) (hfull : IsCut text σ.fullStart)
    (hcut : Cursor.Cuts text ⟨pos, cs⟩) (hle : σ.fullStart ≤ pos)
    (hsh : pos = 0 → Lexeme.shebang? cs = none)
    (hstop : Trivia.skip text σ.fullStart = Trivia.stop pos cs) :
    (σ.scanFrom pos cs flags).Clear text ∧
      Trivia.skip text σ.fullStart = (σ.scanFrom pos cs flags).tokenStart := by
  rw [scanFrom.eq_def]
  match cs with
  | [] =>
    have hfront : Trivia.skip text σ.fullStart = pos := hstop.trans (Trivia.stop_nil pos)
    refine ⟨?_, hfront⟩
    exact accept_clear flags hsrc hskip hfull hcut hle (.of_none (Text.seamAt_zero _) rfl)
      (fun e => by cases e) fun _ => hfront
  | c :: cs =>
    have hlex : (if pos = 0 then Lexeme.shebang? (c :: cs) else none) = none := by
      split
      · exact hsh ‹_›
      · rfl
    have hreads := Lexeme.read_reads σ.variant c cs
    simp only [hlex, Option.getD_none, hskip, Bool.and_true]
    cases ht : Lexeme.trivia? c cs with
    | some l =>
      have hl := Lexeme.trivia?_isTrivia ht
      have hdrop : (c :: cs).drop l.length = cs.drop (l.length - 1) := by
        obtain ⟨n, hn⟩ := Nat.exists_eq_succ_of_ne_zero (Nat.ne_of_gt hl.pos)
        simp [hn]
      have hread : Lexeme.read σ.variant c cs = l := by simp [Lexeme.read, ht]
      have hpos : 0 < Text.bytes ((c :: cs).take l.length) :=
        Text.bytes_pos (by simpa [List.take_eq_nil_iff] using Nat.ne_of_gt hl.pos)
      rw [hread] at hreads
      simp only [hread, hl.kind, if_true]
      refine scanFrom_clear hsrc hskip hfull (hdrop ▸ hcut.advance hreads.seam) (by omega)
        (fun h => by omega) ?_
      rw [hstop, hl.stop pos, hdrop]
    | none =>
      have hread : Lexeme.read σ.variant c cs = Lexeme.token σ.variant c cs := by
        simp [Lexeme.read, ht]
      obtain ⟨hplain, hbrace⟩ := Lexeme.token_kind σ.variant c cs
      simp only [TokenKind.isPlain, Bool.and_eq_true, Bool.not_eq_true'] at hplain
      rw [hread] at hreads
      simp only [hread, hplain.1.1, Bool.false_eq_true, if_false]
      have hfront : Trivia.skip text σ.fullStart = pos := by
        rw [hstop, Lexeme.stop_of_trivia?_eq_none ht]
      refine ⟨?_, hfront⟩
      exact accept_clear flags hsrc hskip hfull hcut hle hreads
        (fun h => by simp [hbrace h]) fun _ => hfront
termination_by cs.length
decreasing_by
  simp only [List.length_drop, List.length_cons]
  omega

/-- **The next token of a scanner whose cursor stands at a cut.** -/
theorem scan_clear (hsrc : σ.source = text) (hskip : σ.skipTrivia = true)
    (hcut : σ.cursor.Cuts text) :
    σ.scan.Clear text ∧ Trivia.skip text σ.tokenEnd = σ.scan.tokenStart := by
  unfold scan
  cases h : if σ.cursor.pos = 0 then Lexeme.shebang? σ.cursor.rest else none with
  | none =>
    have hsh (h0 : σ.cursor.pos = 0) : Lexeme.shebang? σ.cursor.rest = none := by
      simpa [h0] using h
    refine scanFrom_clear (σ := { σ with fullStart := σ.cursor.pos }) hsrc hskip hcut.isCut hcut
      (Nat.le_refl _) hsh ?_
    refine skip_eq_stop hcut.on fun h0 => ?_
    rw [on_zero hcut.on h0, shebang?_eq, hsh h0, Option.map_none]
  | some l =>
    obtain ⟨h0, hl⟩ : σ.cursor.pos = 0 ∧ Lexeme.shebang? σ.cursor.rest = some l := by
      split at h
      · exact ⟨‹_›, h⟩
      · cases h
    obtain ⟨hk, hlen⟩ := shebang?_lexeme hl
    have htext : text = σ.cursor.rest := on_zero hcut.on h0
    have hfirst := scanFrom_shebang (s := { σ with fullStart := σ.cursor.pos }) {} hskip hl
    have hpos : 0 < Text.bytes (σ.cursor.rest.take l.length) := by
      refine Text.bytes_pos fun e => ?_
      rcases List.take_eq_nil_iff.1 e with e | e
      · omega
      · simp [e, Lexeme.shebang?] at hl
    have hadv := hcut.advance (Lexeme.shebang?_reads hl).seam
    rw [Cursor.advance, h0, Nat.zero_add] at hadv
    have hzero : σ.tokenEnd = 0 := h0
    rw [h0] at hfirst ⊢
    rw [hfirst, hzero]
    refine scanFrom_clear (σ := { σ with fullStart := 0 }) hsrc hskip (h0 ▸ hcut.isCut) hadv
      (Nat.zero_le _) (fun h => by omega) ?_
    -- the line is what `skip` starts behind
    simp only [Trivia.skip, if_true, htext, shebang?_eq, hl, Option.map_some, Option.getD_some]
    rw [← htext] at hadv ⊢
    have hsuffix := hadv.on.suffixAt
    have hsum := hadv.on.pos_add
    simp only at hsuffix hsum
    rw [Trivia.stop, hsuffix, hsum]

/-- Behind a token the text goes on where the token's spelling ends. -/
lemma Clear.isCut_behind {w : List Char} (h : σ.Clear text) (hw : σ.kind.spelling? = some w) :
    IsCut text (σ.tokenEnd - Text.bytes w) := by
  rw [h.tokenEnd_eq hw, Nat.add_sub_cancel]
  exact h.start.isCut

/-- A way to read a token, or to read the one at hand again, that keeps a scanner clear. -/
class Clears (f : Scanner → Scanner) : Prop extends Moves f where
  clear {text : Source} {σ : Scanner} : σ.Clear text → (f σ).Clear text

instance : Clears scan where
  clear h := (scan_clear h.source h.skips h.cursor).1

/-! ### The token at hand, read again -/

/-- Another reading of the token at hand that starts at the same place. -/
lemma Clear.reread {kind : TokenKind} {cursor : Cursor} {value : String} {flags : TokenFlags}
    (h : σ.Clear text) (hs : σ.kind.isElementText = false)
    (hp : ({ σ with kind := kind, cursor := cursor, value := value, flags := flags } :
      Scanner).Placed)
    (hcut : cursor.Cuts text)
    (hw : ∀ w, kind.spelling? = some w → w <+: σ.start.rest ∧ cursor = σ.start.advance w.length) :
    ({ σ with kind := kind, cursor := cursor, value := value, flags := flags } :
      Scanner).Clear text where
  source := h.source
  skips := h.skips
  placed := hp
  fullStart := h.fullStart
  start := h.start
  cursor := hcut
  written := hw
  front _ := h.front hs

lemma advance_advance (c : Cursor) (m n : Nat) : (c.advance m).advance n = c.advance (m + n) := by
  simp only [Cursor.advance, List.take_add, Text.bytes_append, List.drop_drop, Nat.add_assoc]

instance : Clears rescanGreater where
  clear {text σ} h := by
    have hplaced : σ.rescanGreater.Placed := Moves.placed h.placed
    by_cases hkind : σ.kind = .greaterThan
    · obtain ⟨⟨ds, hds⟩, hcursor⟩ := h.written ['>'] (by rw [hkind]; rfl)
      have hrest : σ.cursor.rest = ds := by simp [hcursor, Cursor.advance, ← hds]
      have hspells := Punctuation.spells_greaterRest ds
      simp only [rescanGreater, hkind, beq_self_eq_true, if_true, hrest] at hplaced ⊢
      generalize Punctuation.greaterRest ds = x at hplaced hspells ⊢
      have hstart : '>' :: ds = σ.start.rest := hds
      have hwhole : σ.cursor.advance x.2 = σ.start.advance (1 + x.2) := by
        rw [hcursor]
        exact advance_advance ..
      rw [Punctuation.Spells, hstart] at hspells
      refine h.reread (by rw [hkind]; rfl) hplaced ?_ fun w hw => ?_
      · rw [hwhole]
        exact h.start.advance (Text.seam_of_not_mem (TokenKind.not_mem_spelling hspells))
      · obtain rfl := Option.some.inj (hspells.symm.trans hw)
        exact ⟨List.take_prefix _ _, by rw [hwhole, σ.start.advance_length_take]⟩
    · have hsame : σ.rescanGreater = σ := by
        simp only [rescanGreater, beq_iff_eq, if_neg hkind]
      rw [hsame]
      exact h

instance : Clears halt where
  clear {text σ} h := by
    have hplaced : σ.halt.Placed := Moves.placed h.placed
    unfold halt at hplaced ⊢
    split
    · exact h
    · next hkind =>
      rw [if_neg hkind] at hplaced
      exact h.reread (Bool.not_eq_true _ ▸ hkind) hplaced h.cursor nofun

instance : Clears rescanLess where
  clear {text σ} h := by
    have hplaced : σ.rescanLess.Placed := Moves.placed h.placed
    unfold rescanLess at hplaced ⊢
    split
    · next hkind =>
      rw [if_pos hkind] at hplaced
      obtain ⟨hs, ds, hds⟩ : σ.kind.isElementText = false ∧ ∃ ds, '<' :: ds = σ.start.rest := by
        rcases Bool.or_eq_true_iff.1 hkind with hkind | hkind
        · obtain ⟨⟨ds, hds⟩, -⟩ := h.written ['<', '<'] (by rw [beq_iff_eq.1 hkind]; rfl)
          exact ⟨by rw [beq_iff_eq.1 hkind]; rfl, _, hds⟩
        · obtain ⟨⟨ds, hds⟩, -⟩ := h.written ['<', '<', '='] (by rw [beq_iff_eq.1 hkind]; rfl)
          exact ⟨by rw [beq_iff_eq.1 hkind]; rfl, _, hds⟩
      have hseam : SeamAt σ.start.rest 1 := by
        rw [← hds]
        exact Text.seamAt_one fun e => by cases e
      refine h.reread hs hplaced (h.start.advance hseam) fun w hw => ?_
      obtain rfl : ['<'] = w := Option.some.inj hw
      exact ⟨⟨ds, hds⟩, rfl⟩
    · exact h

lemma regexBody_seamAt (escaped inClass : Bool) (cs : List Char) :
    SeamAt cs (regexBody escaped inClass cs).1 := by
  induction cs generalizing escaped inClass with
  | nil => exact Text.seamAt_zero _
  | cons c cs ih =>
    unfold regexBody
    split
    · exact Text.seamAt_zero _
    next hbreak =>
    have hne : c ≠ '\r' := by
      rintro rfl
      exact hbreak rfl
    split
    · exact Text.seamAt_one fun e => absurd e hne
    · dsimp only
      split
      · exact (ih _ _).succ hne
      split
      · exact (ih _ _).succ hne
      split
      · exact (ih _ _).succ hne
      split
      · exact (ih _ _).succ hne
      · exact (ih _ _).succ hne

lemma identifierPart_return : Text.isIdentifierPart '\r' = false := by decide +kernel

instance : Clears rescanSlash where
  clear {text σ} h := by
    have hplaced : σ.rescanSlash.Placed := Moves.placed h.placed
    unfold rescanSlash at hplaced ⊢
    split
    · next hkind =>
      rw [if_pos hkind] at hplaced
      obtain ⟨hs, ds, hds⟩ : σ.kind.isElementText = false ∧ ∃ ds, '/' :: ds = σ.start.rest := by
        rcases Bool.or_eq_true_iff.1 hkind with hkind | hkind
        · obtain ⟨⟨ds, hds⟩, -⟩ := h.written ['/'] (by rw [beq_iff_eq.1 hkind]; rfl)
          exact ⟨by rw [beq_iff_eq.1 hkind]; rfl, _, hds⟩
        · obtain ⟨⟨ds, hds⟩, -⟩ := h.written ['/', '='] (by rw [beq_iff_eq.1 hkind]; rfl)
          exact ⟨by rw [beq_iff_eq.1 hkind]; rfl, _, hds⟩
      have hdrop : σ.start.rest.drop 1 = ds := by rw [← hds]; rfl
      have hbody := (regexBody_seamAt false false ds).add
        (Text.seamAt_takeWhile Text.isIdentifierPart identifierPart_return _)
      have hseam := hbody.cons (c := '/') (by decide)
      rw [← Nat.add_assoc, hds] at hseam
      refine h.reread hs hplaced (h.start.advance ?_) fun w hw => by cases hw
      rw [hdrop]
      exact hseam
    · exact h

lemma jsxNameRest_seamAt (cs : List Char) : SeamAt cs (jsxNameRest cs).1 := by
  fun_induction jsxNameRest cs with
  | case1 => exact Text.seamAt_zero _
  | case2 c cs h n flags hrest ih =>
    rw [hrest] at ih
    refine ih.succ ?_
    rintro rfl
    exact absurd h (by decide)
  | case3 => exact Text.seamAt_zero _
  | case4 c cs h p hp n flags hrest ih =>
    rw [hrest] at ih
    refine (Word.parts_seamAt (c :: cs)).add ?_
    obtain ⟨k, hk⟩ := Nat.exists_eq_succ_of_ne_zero hp
    have hdrop : (c :: cs).drop p.length = cs.drop (p.length - 1) := by simp [hk]
    rwa [hdrop]

instance : Clears scanJsxIdentifier where
  clear {text σ} h := by
    have hplaced : σ.scanJsxIdentifier.Placed := Moves.placed h.placed
    unfold scanJsxIdentifier at hplaced ⊢
    split
    · next hkind =>
      rw [if_pos hkind] at hplaced
      have hs := (TokenKind.isPlain_of_word hkind).1
      simp only [TokenKind.isPlain, Bool.and_eq_true, Bool.not_eq_true'] at hs
      refine h.reread hs.1.2 hplaced (h.cursor.advance (jsxNameRest_seamAt _)) fun w hw => ?_
      rw [TokenKind.spelling?_ofWord] at hw
      cases hw
    · exact h

/-- A closing brace, read again as a piece of a template. -/
theorem Clear.rescanTemplate (h : σ.Clear text) (hk : σ.kind = .closeBrace) :
    σ.rescanTemplate.Clear text := by
  have hplaced := h.placed.rescanTemplate hk
  obtain ⟨-, hcursor⟩ := h.written ['\x7d'] (by rw [hk]; rfl)
  have hone : σ.tokenStart + 1 = σ.cursor.pos :=
    (h.tokenEnd_eq (w := ['\x7d']) (by rw [hk]; rfl)).symm
  have hafter : (Cursor.ofOffset σ.source (σ.tokenStart + 1)).Cuts text := by
    rw [h.source, hone]
    exact Cursor.cuts_ofOffset h.cursor.isCut
  have hnone : σ.rescanTemplate.kind.spelling? = none := by
    simp only [Scanner.rescanTemplate, Quoted.templateRest]
    split <;> rfl
  refine h.reread (by rw [hk]; rfl) hplaced (hafter.advance ?_) fun w hw => ?_
  · simp only [Quoted.templateRest]
    rw [Nat.add_sub_cancel_left]
    exact Quoted.templateBody_seamAt _
  · exact absurd (hnone.symm.trans hw) (by simp)

/-! ### Inside elements -/

/-- A token that starts right at the cursor. -/
lemma Clear.acceptHere {l : Lexeme} (h : σ.Clear text) (hk : l.kind ≠ .closeBrace)
    (hl : l.Reads σ.cursor.rest)
    (hfront : l.kind.isElementText = false → Trivia.skip text σ.cursor.pos = σ.cursor.pos) :
    ({ σ with fullStart := σ.cursor.pos }.accept σ.cursor l {}).Clear text :=
  accept_clear (σ := { σ with fullStart := σ.cursor.pos }) {} h.source h.skips h.cursor.isCut
    h.cursor (Nat.le_refl _) hl (fun e => absurd e hk) hfront

instance : Clears scanJsxToken where
  clear {text σ} h := by
    unfold scanJsxToken
    dsimp only
    split
    · next hc =>
      refine h.acceptHere (by decide) (.of_none (Text.seamAt_zero _) rfl) fun _ => ?_
      have hsh (h0 : σ.cursor.pos = 0) : Trivia.shebang? text = none := by
        rw [on_zero h.cursor.on h0, hc]
        rfl
      rw [skip_eq_stop h.cursor.on hsh, hc, Trivia.stop_nil]
    · next ds hc =>
      refine h.acceptHere (by decide) ⟨?_, fun w hw => ?_⟩ fun _ => ?_
      · rw [hc]
        exact fun hs => absurd hs.1 (by simp)
      · rw [hc]
        exact Option.some.inj hw
      · exact skip_eq_self h.cursor.on hc rfl (by decide)
    · next ds _ hc =>
      refine h.acceptHere (by decide) ⟨?_, fun w hw => ?_⟩ fun _ => ?_
      · rw [hc]
        exact Text.seamAt_one fun e => by cases e
      · rw [hc]
        exact Option.some.inj hw
      · exact skip_eq_self h.cursor.on hc rfl (by decide)
    · next ds hc =>
      refine h.acceptHere (by decide) ⟨?_, fun w hw => ?_⟩ fun _ => ?_
      · rw [hc]
        exact Text.seamAt_one fun e => by cases e
      · rw [hc]
        exact Option.some.inj hw
      · exact skip_eq_self h.cursor.on hc rfl (by decide)
    · refine h.acceptHere ?_ (.of_none (Text.seamAt_takeWhile_of_stop _ (by decide) _) ?_) ?_
      · dsimp only
        split <;> decide
      · dsimp only
        split <;> rfl
      · dsimp only
        split <;> exact fun e => by cases e

instance : Clears scanJsxAttributeValue where
  clear {text σ} h := by
    unfold scanJsxAttributeValue
    split
    · next c cs hc =>
      split
      · next hq =>
        simp only [Bool.or_eq_true, beq_iff_eq] at hq
        refine h.acceptHere (by simp [Quoted.stringLexeme]) ?_ fun _ => ?_
        · rw [hc]
          exact Lexeme.stringLexeme_reads (by rcases hq with rfl | rfl <;> decide) true cs
        · rcases hq with rfl | rfl <;> exact skip_eq_self h.cursor.on hc rfl (by decide)
      · exact Clears.clear h
    · exact Clears.clear h

/-! ### Tokens by themselves -/

lemma reset_cuts {p : Nat} (variant : Variant) (h : IsCut text p) :
    (((ofSource text variant true).reset p).cursor).Cuts text := by
  have hle := h.isBoundary.le_bytes
  simp only [reset, ofSource]
  rw [Nat.min_eq_left hle]
  exact Cursor.cuts_ofOffset h

variable {p : Nat}

lemma scan_reset_clear (variant : Variant) (h : IsCut text p) :
    ((ofSource text variant true).reset p).scan.Clear text :=
  (scan_clear (σ := (ofSource text variant true).reset p) rfl rfl (reset_cuts variant h)).1

/-- The token behind a cut starts and stops at cuts. -/
lemma tokenAt_cuts (variant : Variant) (h : IsCut text p) :
    IsCut text (tokenAt text variant p).2.1 ∧ IsCut text (tokenAt text variant p).2.2 :=
  ⟨(scan_reset_clear variant h).start.isCut, (scan_reset_clear variant h).cursor.isCut⟩

/-- Trivia behind a cut stops at a cut. -/
lemma isCut_skip (h : IsCut text p) : IsCut text (Trivia.skip text p) := by
  have hskip : Trivia.skip text ((ofSource text .standard true).reset p).tokenEnd =
      ((ofSource text .standard true).reset p).scan.tokenStart :=
    (scan_clear (σ := (ofSource text .standard true).reset p) rfl rfl (reset_cuts .standard h)).2
  have hpos : ((ofSource text .standard true).reset p).tokenEnd = p :=
    Nat.min_eq_left h.isBoundary.le_bytes
  rw [hpos] at hskip
  rw [hskip]
  exact (scan_reset_clear .standard h).start.isCut

end Scanner

end EstreeLint
