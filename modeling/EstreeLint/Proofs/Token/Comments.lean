import EstreeLint.Proofs.Text.Slice
import EstreeLint.Proofs.Token.Scans

/-!
The two readers of trivia report the same. Read character by character or token by token, trivia
stops at the same place, and the same comments stand in it.
-/

namespace EstreeLint

/-- Where a comment stands, and whether it is a block. -/
def CommentRange.place (c : CommentRange) : Nat × Nat × Bool := (c.pos, c.stop, c.isBlock)

/-! ### Comments in one piece of trivia -/

namespace Trivia

open Text (bytes)

variable {limit pos stop : Nat} {c : Char} {cs body after : List Char} {l : Lexeme}

/-- Where the comments in the trivia at the front of a text stand, up to a limit. -/
def places (limit pos : Nat) (cs : List Char) : List (Nat × Nat × Bool) :=
  (scan limit pos cs).1.map CommentRange.place

/-- The comment that a piece of trivia of a kind is. -/
def comment? (kind : TokenKind) (start stop : Nat) : Option (Nat × Nat × Bool) :=
  match kind with
  | .singleLineCommentTrivia => some (start, stop, false)
  | .multiLineCommentTrivia => some (start, stop, true)
  | _ => none

/-- Where trivia is read from: behind a `#!` line at the start of the text. -/
def front (source : Source) (pos : Nat) : Nat :=
  if pos = 0 then (shebang? source).getD 0 else pos

lemma skip_of_front {source : Source} {c : Cursor} (h : c.On source)
    (hc : c.pos = front source pos) : skip source pos = Trivia.stop c.pos c.rest := by
  rw [front] at hc
  rw [skip, ← hc, h.suffixAt, ← h.pos_add]
  rfl

lemma places_of_le (h : limit ≤ pos) (cs : List Char) : places limit pos cs = [] := by
  rw [places, scan_of_le h, List.map_nil]

lemma places_line (hbody : cs.takeWhile (!Text.isLineBreak ·) = body)
    (hle : pos + 2 + bytes body ≤ limit) :
    places limit pos ('/' :: '/' :: cs) = (pos, pos + 2 + bytes body, false) ::
      places limit (pos + 2 + bytes body) (cs.drop body.length) := by
  have hline : lineBody (limit - (pos + 2)) cs = body := by
    rw [lineBody_eq (by rw [hbody]; omega), hbody]
  rw [places, scan_line (by omega), hline]
  rfl

lemma places_block (hbody : blockBody? (bytes cs) cs = some body)
    (hle : pos + 2 + bytes body + 2 ≤ limit) :
    places limit pos ('/' :: '*' :: cs) = (pos, pos + 2 + bytes body + 2, true) ::
      places limit (pos + 2 + bytes body + 2) (cs.drop (body.length + 2)) := by
  rw [places, scan_block (by omega) (blockBody?_of_le hbody (by omega))]
  rfl

lemma places_open_block (hopen : blockBody? (bytes cs) cs = none) :
    places (pos + 2 + bytes cs) pos ('/' :: '*' :: cs) = [(pos, pos + 2 + bytes cs, true)] := by
  have hbudget : pos + 2 + bytes cs - (pos + 2) = bytes cs := by omega
  have hlt : pos + 1 < pos + 2 + bytes cs := by omega
  obtain ⟨endsLine, hscan⟩ := scan_open_block hlt (hbudget.symm ▸ hopen)
  rw [places, hscan]
  rfl

/-- **The comments in trivia are those of its pieces, one piece after the other.** -/
lemma places_piece (h : Lexeme.trivia? c cs = some l)
    (hstop : pos + bytes ((c :: cs).take l.length) = stop) (hle : stop ≤ limit)
    (hin : limit ≤ pos + bytes (c :: cs)) :
    places limit pos (c :: cs) =
      (comment? l.kind pos stop).toList ++ places limit stop ((c :: cs).drop l.length) := by
  rcases Lexeme.trivia?_cases h with ⟨u, v, hcs, hu⟩ | ⟨ds, hcs, rfl⟩ | ⟨ds, hcs, rfl⟩
  · rw [hcs, hu.length, List.take_left] at hstop
    have hnone : comment? l.kind pos stop = none := by
      rcases hu.kind with hk | hk <;> rw [hk] <;> rfl
    rw [hcs, hu.length, List.drop_left, hnone, places, scan_blanks hu.blank (hstop ▸ hle), hstop]
    rfl
  · simp only [hcs, Lexeme.take_line, Text.bytes_cons, bytes_slash] at hstop
    rw [hcs, places_line rfl (by omega), Nat.add_comm 2, List.drop_succ_cons, List.drop_succ_cons]
    rw [show pos + 2 + bytes (ds.takeWhile (!Text.isLineBreak ·)) = stop by omega]
    rfl
  · rw [hcs] at hstop hin ⊢
    cases hb : blockBody? (bytes ds) ds with
    | some body =>
      obtain ⟨after, hds, -⟩ := blockBody?_eq_append hb
      have hsplit : '/' :: '*' :: ds = ('/' :: '*' :: (body ++ ['*', '/'])) ++ after := by
        simp [hds]
      have hlength : (Lexeme.blockComment ds).length = body.length + 4 := by
        simp [Lexeme.blockComment, hb]
      have hkind : (Lexeme.blockComment ds).kind = .multiLineCommentTrivia := by
        simp [Lexeme.blockComment, hb]
      rw [hlength, hsplit, List.take_left' (by simp)] at hstop
      simp only [Text.bytes_cons, Text.bytes_append, bytes_slash, bytes_star, Text.bytes_nil]
        at hstop
      rw [places_block hb (by omega), hlength, hkind, List.drop_succ_cons, List.drop_succ_cons]
      rw [show pos + 2 + bytes body + 2 = stop by omega]
      rfl
    | none =>
      have hlength : (Lexeme.blockComment ds).length = ds.length + 2 := by
        simp [Lexeme.blockComment, hb]
      have hkind : (Lexeme.blockComment ds).kind = .multiLineCommentTrivia := by
        simp [Lexeme.blockComment, hb]
      rw [hlength, List.take_of_length_le (by simp)] at hstop
      simp only [Text.bytes_cons, bytes_slash, bytes_star] at hstop hin
      obtain rfl : limit = pos + 2 + bytes ds := by omega
      rw [places_open_block hb, hkind, places_of_le (by omega),
        show stop = pos + 2 + bytes ds by omega]
      rfl

end Trivia

/-! ### From piece to piece -/

namespace Cursor

variable {text : Source} {v : Variant} {c d : Cursor} {ls : List Lexeme}

/-- Trivia away from a `#!` line is white space, line breaks and comments. -/
lemma trivia?_of_isTrivia (hsh : c.pos = 0 → Lexeme.shebang? c.rest = none)
    (h : (c.lexeme v).kind.isTrivia = true) :
    ∃ x cs, c.rest = x :: cs ∧ Lexeme.trivia? x cs = some (c.lexeme v) := by
  rcases lexeme_cases v c with ⟨-, hl⟩ | ⟨l, h0, hs, -⟩ | htrivia | ⟨x, cs, -, -, hl⟩
  · rw [hl] at h
    cases h
  · rw [hsh h0] at hs
    cases hs
  · exact htrivia
  · rw [hl, Lexeme.isTrivia_token] at h
    cases h

/-- What is no trivia is where trivia stops. -/
lemma stop_eq_pos (h : (c.lexeme v).kind.isTrivia = false) : Trivia.stop c.pos c.rest = c.pos := by
  rcases lexeme_cases v c with ⟨hrest, -⟩ | ⟨l, -, hs, hl⟩ | ⟨x, cs, -, ht⟩ | ⟨x, cs, hrest, ht, -⟩
  · rw [hrest, Trivia.stop_nil]
  · rw [hl, (Scanner.shebang?_lexeme hs).1] at h
    cases h
  · rw [(Lexeme.trivia?_isTrivia ht).kind] at h
    cases h
  · rw [hrest, Lexeme.stop_of_trivia?_eq_none ht]

/-- Trivia stops where the scanner has passed over all of its pieces. -/
lemma Passes.stop_eq (h : Passes v c ls d) (hsh : c.pos = 0 → Lexeme.shebang? c.rest = none) :
    Trivia.stop c.pos c.rest = Trivia.stop d.pos d.rest := by
  induction h with
  | here c => rfl
  | @piece c d ls htrivia _ ih =>
    obtain ⟨x, cs, hrest, ht⟩ := trivia?_of_isTrivia hsh htrivia
    have hl := Lexeme.trivia?_isTrivia ht
    have hlt := pos_lt_advance (c := c) (by rw [hrest]; simp) hl.pos
    rw [← ih fun h0 => by omega, hrest, hl.stop c.pos, ← hrest]
    rfl

end Cursor

namespace Scanner

variable {text : Source} {s : Scanner} {d : Cursor} {ls : List Lexeme} {p : Nat}

/-- The comment that a token is. -/
def comment? (t : Scanner) : Option (Nat × Nat × Bool) :=
  Trivia.comment? t.kind t.tokenStart t.tokenEnd

/-- **The tokens of a scanner that keeps trivia are the pieces of it**, one behind the other. -/
lemma scans_passes (h : s.skipTrivia = false) (hp : Cursor.Passes s.variant s.cursor ls d) :
    Tile s.tokenEnd (s.scans ls.length) d.pos ∧
      ∀ t ∈ s.scans ls.length, t.kind.isTrivia = true := by
  generalize hv : s.variant = v at hp
  generalize hc : s.cursor = c at hp
  induction hp generalizing s with
  | here c =>
    subst hc
    exact ⟨.nil _, by simp [scans]⟩
  | @piece c d ls htrivia _ ih =>
    subst hc hv
    have hscan := scan_of_keeps h
    obtain ⟨htile, hall⟩ := ih (s := s.scan) (by rw [hscan]; exact h) (by rw [hscan]; rfl)
      (by rw [hscan]; rfl)
    have hkind : s.scan.kind = (s.cursor.lexeme s.variant).kind := by rw [hscan]; rfl
    obtain ⟨hne, hpos⟩ := Cursor.lexeme_pos_of_isTrivia htrivia
    exact ⟨tile_scan h hne hpos htile, List.forall_mem_cons.2 ⟨hkind ▸ htrivia, hall⟩⟩

/-- The comments among those tokens are the comments that are read between the two places. -/
lemma scans_comments (h : s.skipTrivia = false) (hp : Cursor.Passes s.variant s.cursor ls d)
    (hon : s.cursor.On text) (hsh : s.cursor.pos = 0 → Lexeme.shebang? s.cursor.rest = none) :
    (s.scans ls.length).filterMap comment? = Trivia.places d.pos s.cursor.pos s.cursor.rest := by
  generalize hv : s.variant = v at hp
  generalize hc : s.cursor = c at hp
  induction hp generalizing s with
  | here c =>
    subst hc
    rw [Trivia.places_of_le (Nat.le_refl _)]
    rfl
  | @piece c d ls htrivia hrest ih =>
    subst hc hv
    have hscan := scan_of_keeps h
    have hcursor : s.scan.cursor = s.cursor.advance (s.cursor.lexeme s.variant).length := by
      rw [hscan]; rfl
    obtain ⟨x, cs, hx, ht⟩ := Cursor.trivia?_of_isTrivia hsh htrivia
    have hlt := Cursor.pos_lt_advance (c := s.cursor) (by rw [hx]; simp)
      (Lexeme.trivia?_isTrivia ht).pos
    have hcomments := ih (s := s.scan) (by rw [hscan]; exact h)
      (by rw [hcursor]; exact hon.advance _) (by rw [hcursor]; intro h0; omega)
      (by rw [hscan]; rfl) hcursor
    have hcomment : s.scan.comment? = Trivia.comment? (s.cursor.lexeme s.variant).kind s.cursor.pos
        (s.cursor.advance (s.cursor.lexeme s.variant).length).pos := by
      rw [hscan]; rfl
    have hwhole := (hrest.on (hon.advance _)).pos_add
    have hhere := hon.pos_add
    have hpiece : Trivia.places d.pos s.cursor.pos (x :: cs) = _ :=
      Trivia.places_piece ht (by rw [← hx]; rfl) hrest.pos_le (by rw [← hx]; omega)
    rw [hx, hpiece, List.length_cons, scans, List.filterMap_cons, hcomment, hcomments, ← hx]
    cases Trivia.comment? (s.cursor.lexeme s.variant).kind s.cursor.pos
      (s.cursor.advance (s.cursor.lexeme s.variant).length).pos <;> rfl

/-- A `#!` line is the first piece of the trivia at the start of a text. -/
lemma lexeme_of_shebang {l : Lexeme} {v : Variant} {c : Cursor} (h0 : c.pos = 0)
    (hl : Lexeme.shebang? c.rest = some l) : c.lexeme v = l := by
  obtain ⟨pos, rest⟩ := c
  cases rest with
  | nil => cases hl
  | cons x cs =>
    dsimp only at h0 hl
    simp only [Cursor.lexeme, h0, if_true, hl, Option.getD_some]

lemma comment?_of_shebang {l : Lexeme} {cs : List Char} (hl : Lexeme.shebang? cs = some l)
    (start stop : Nat) : Trivia.comment? l.kind start stop = none := by
  unfold Lexeme.shebang? at hl
  split at hl
  · cases hl
    rfl
  · cases hl

/-- From where trivia is read as such, it stops where the tokens that are trivia end, and its
comments are those among them. -/
lemma comments_of_front {p : Nat} (h : s.skipTrivia = false)
    (hp : Cursor.Passes s.variant s.cursor ls d) (hd : (d.lexeme s.variant).kind.isTrivia = false)
    (hon : s.cursor.On text) (hfront : s.cursor.pos = Trivia.front text p)
    (hsh : s.cursor.pos = 0 → Lexeme.shebang? s.cursor.rest = none) :
    Trivia.skip text p = d.pos ∧ (s.scans ls.length).filterMap comment? =
      (Trivia.commentsIn text (Trivia.front text p) d.pos).map CommentRange.place := by
  refine ⟨?_, ?_⟩
  · rw [Trivia.skip_of_front hon hfront, hp.stop_eq hsh, Cursor.stop_eq_pos hd]
  · have hle : d.pos ≤ Text.bytes text := by
      have := (hp.on hon).pos_add
      omega
    rw [scans_comments h hp hon hsh, ← hfront, Trivia.commentsIn, Nat.min_eq_left hle,
      hon.suffixAt, Trivia.places]

/-- The same from any place, where a `#!` line may come first. -/
lemma comments_of_passes (h : s.skipTrivia = false) (hp : Cursor.Passes s.variant s.cursor ls d)
    (hd : (d.lexeme s.variant).kind.isTrivia = false) (hon : s.cursor.On text) :
    Trivia.skip text s.cursor.pos = d.pos ∧ (s.scans ls.length).filterMap comment? =
      (Trivia.commentsIn text (Trivia.front text s.cursor.pos) d.pos).map CommentRange.place := by
  cases hsh : if s.cursor.pos = 0 then Lexeme.shebang? s.cursor.rest else none with
  | none =>
    have hnone (h0 : s.cursor.pos = 0) : Lexeme.shebang? s.cursor.rest = none := by
      simpa [h0] using hsh
    refine comments_of_front h hp hd hon ?_ hnone
    rw [Trivia.front]
    split
    · next h0 => rw [on_zero hon h0, shebang?_eq, hnone h0, h0]; rfl
    · rfl
  | some l =>
    obtain ⟨h0, hl⟩ : s.cursor.pos = 0 ∧ Lexeme.shebang? s.cursor.rest = some l := by
      split at hsh
      · exact ⟨‹_›, hsh⟩
      · cases hsh
    have hlexeme := lexeme_of_shebang (v := s.variant) h0 hl
    obtain ⟨hkind, hlength⟩ := shebang?_lexeme hl
    have hscan := scan_of_keeps h
    rw [hlexeme] at hscan
    have hfront : s.scan.cursor.pos = Trivia.front text s.cursor.pos := by
      rw [hscan, Trivia.front, if_pos h0, on_zero hon h0, shebang?_eq, hl]
      simp only [accept, Cursor.advance, h0, Nat.zero_add, Option.map_some, Option.getD_some]
    have hlt : s.cursor.pos < s.scan.cursor.pos := by
      rw [hscan]
      refine Cursor.pos_lt_advance (fun hnil => ?_) hlength
      rw [hnil] at hl
      cases hl
    cases hp with
    | here =>
      rw [hlexeme, hkind] at hd
      cases hd
    | piece _ hrest =>
      rw [hlexeme] at hrest
      have hnext : s.scan.cursor.On text := by
        rw [hscan]
        exact hon.advance _
      have hbehind := comments_of_front (s := s.scan) (p := s.cursor.pos) (by rw [hscan]; exact h)
        (by rw [hscan]; exact hrest) (by rw [hscan]; exact hd) hnext hfront (by omega)
      have hcomment : s.scan.comment? = none := by
        rw [hscan]
        exact comment?_of_shebang hl _ _
      rw [List.length_cons, scans, List.filterMap_cons, hcomment]
      exact hbehind

/-- **The two readers of trivia agree.** From any boundary on, a scanner that skips trivia finds its
next token where trivia stops; and the comments that are read up to there, behind a `#!` line if
there is one, are those among the tokens of a scanner that keeps trivia. -/
theorem readers_of_trivia_agree (s : Scanner) (hskip : s.skipTrivia = true)
    (hp : Text.IsBoundary s.source p) :
    let stop := Trivia.skip s.source p
    let keeping := { s with skipTrivia := false }.reset p
    (s.reset p).scan.tokenStart = stop ∧
      ∃ n, Tile p (keeping.scans n) stop ∧ (∀ t ∈ keeping.scans n, t.kind.isTrivia = true) ∧
        (keeping.scans n).filterMap comment? =
          (Trivia.commentsIn s.source (Trivia.front s.source p) stop).map CommentRange.place := by
  intro stop keeping
  have hcursor : keeping.cursor = Cursor.ofOffset s.source p :=
    congrArg (Cursor.ofOffset s.source) (Nat.min_eq_left hp.le_bytes)
  have hon : keeping.cursor.On s.source := hcursor ▸ Cursor.on_ofOffset hp
  have hpos : keeping.cursor.pos = p := by rw [hcursor]; rfl
  obtain ⟨ls, d, hpasses, hscan, hlast⟩ := scan_eq (s.reset p)
  have hd : (d.lexeme s.variant).kind.isTrivia = false := by simpa [reset, hskip] using hlast
  have hstart : (s.reset p).scan.tokenStart = d.pos := by rw [hscan]; rfl
  obtain ⟨htile, htrivia⟩ := scans_passes (s := keeping) rfl hpasses
  obtain ⟨hstop, hcomments⟩ := comments_of_passes (s := keeping) rfl hpasses hd hon
  rw [hpos] at hstop hcomments
  have hend : keeping.tokenEnd = p := hpos
  rw [hend, ← hstop] at htile
  rw [← hstop] at hcomments
  exact ⟨hstart.trans hstop.symm, ls.length, htile, htrivia, hcomments⟩

/-- A `#!` line, comments of both forms, a line separator, and a comment that is not closed. -/
def shebangAndComments : Source := "#!x\n/*a*/ //b\u2028/*c".toList

theorem shebangAndComments_agree :
    let skipping := ofSource shebangAndComments .jsx true
    let keeping := ({ skipping with skipTrivia := false } : Scanner).reset 0
    (skipping.reset 0).scan.tokenStart = 19 ∧
      ∃ n, Tile 0 (keeping.scans n) 19 ∧ (∀ t ∈ keeping.scans n, t.kind.isTrivia = true) ∧
        (keeping.scans n).filterMap comment? = [(4, 9, true), (10, 13, false), (16, 19, true)] := by
  have hstop : Trivia.skip shebangAndComments 0 = 19 := by decide +kernel
  have hcomments : (Trivia.commentsIn shebangAndComments (Trivia.front shebangAndComments 0)
      19).map CommentRange.place = [(4, 9, true), (10, 13, false), (16, 19, true)] := by
    decide +kernel
  have hagree := readers_of_trivia_agree (p := 0) (ofSource shebangAndComments .jsx true) rfl
    (Text.isBoundary_zero _)
  dsimp only [ofSource] at hagree
  rw [hstop, hcomments] at hagree
  exact hagree

end Scanner

end EstreeLint
