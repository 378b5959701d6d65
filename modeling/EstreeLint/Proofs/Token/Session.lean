import EstreeLint.Proofs.Token.Breaks

/-!
A scanner in use. Whatever is asked of a scanner and in whatever order, with snapshots taken and
gone back to, the token at hand lies inside the text, and the next scan goes on behind it.

The next token is empty only at the end of the text and at a `\u` that is no escape of a character
of a name; there a scanner stays.
-/

namespace EstreeLint

/-! ### Tokens without text -/

namespace Word

/-- A text begins with a `\u` that is no escape of a character that a name may have. -/
def BadEscape (cs : List Char) : Prop :=
  ∃ ds, cs = '\\' :: 'u' :: ds ∧
    ∀ c, (unicodeEscape ds).value = some c → Text.isIdentifierPart c = false

lemma length_parts_escape (cs : List Char) :
    (parts ('\\' :: 'u' :: cs)).length = 0 ↔
      ∀ c, (unicodeEscape cs).value = some c → Text.isIdentifierPart c = false := by
  have hslash : Text.isIdentifierPart '\\' = false := by decide
  rw [parts.eq_def]
  simp only [hslash, Bool.false_eq_true, if_false, beq_self_eq_true, if_true]
  cases hvalue : (unicodeEscape cs).value with
  | none => simp
  | some d =>
    cases hpart : Text.isIdentifierPart d with
    | true => simp [Parts.cons, hpart]
    | false => simp [hpart]

end Word

/-- A token that is empty stands where a `\u` is no escape of a character of a name. -/
lemma Lexeme.length_token_eq_zero (v : Variant) (c : Char) (cs : List Char) :
    (token v c cs).length = 0 ↔ Word.BadEscape (c :: cs) := by
  by_cases hescape : ∃ ds, c :: cs = '\\' :: 'u' :: ds
  · obtain ⟨ds, hds⟩ := hescape
    obtain ⟨rfl, rfl⟩ := List.cons.inj hds
    rw [token_escape]
    refine (Word.length_parts_escape ds).trans ⟨fun h => ⟨ds, rfl, h⟩, ?_⟩
    rintro ⟨ds', heq, h⟩
    obtain rfl : ds = ds' := by simpa using heq
    exact h
  · have htoken := token_isToken v fun ds hds => absurd ⟨ds, hds⟩ hescape
    refine ⟨fun h0 => absurd h0 (Nat.ne_of_gt htoken.pos), ?_⟩
    rintro ⟨ds, hds, -⟩
    exact absurd ⟨ds, hds⟩ hescape

namespace Cursor

variable {c : Cursor}

lemma lexeme_kind_eq_endOfFile (v : Variant) (c : Cursor) :
    (c.lexeme v).kind = .endOfFile ↔ c.rest = [] := by
  refine ⟨fun h => ?_, fun h => by simp only [lexeme, h]⟩
  have hnot {l : Lexeme} (hl : l.kind.isTrivia = true) : l.kind ≠ .endOfFile :=
    fun e => by rw [e] at hl; cases hl
  rcases lexeme_cases v c with ⟨hrest, -⟩ | ⟨l, -, hs, hl⟩ | ⟨x, cs, -, ht⟩ | ⟨x, cs, -, -, hl⟩
  · exact hrest
  · exact absurd (hl ▸ h) (hnot (Scanner.shebang?_lexeme hs).1)
  · exact absurd h (hnot (Lexeme.trivia?_isTrivia ht).kind)
  · have hplain := (Lexeme.token_kind v x cs).1
    rw [← hl, h] at hplain
    cases hplain

/-- **Nothing is read before the end of the text exactly at a bad escape.** -/
lemma lexeme_length_eq_zero (v : Variant) (hrest : c.rest ≠ []) :
    (c.lexeme v).length = 0 ↔ Word.BadEscape c.rest := by
  rcases lexeme_cases v c with ⟨hnil, -⟩ | ⟨l, -, hs, hl⟩ | ⟨x, cs, hx, ht⟩ | ⟨x, cs, hx, -, hl⟩
  · exact absurd hnil hrest
  · refine ⟨fun h => absurd (hl ▸ h) (Nat.ne_of_gt (Scanner.shebang?_lexeme hs).2), ?_⟩
    rintro ⟨ds, hds, -⟩
    rw [hds] at hs
    cases hs
  · refine ⟨fun h => absurd h (Nat.ne_of_gt (Lexeme.trivia?_isTrivia ht).pos), ?_⟩
    rintro ⟨ds, hds, -⟩
    obtain ⟨rfl, rfl⟩ := List.cons.inj (hx.symm.trans hds)
    cases ht
  · rw [hl, hx, Lexeme.length_token_eq_zero]

end Cursor

namespace Scanner

variable {text : Source} {s : Scanner}

/-- A scan gives an empty token before the end of the text exactly at a bad escape. -/
lemma scan_empty (hon : s.cursor.On text) :
    s.scan.kind ≠ .endOfFile ∧ s.scan.tokenEnd = s.scan.tokenStart ↔
      Word.BadEscape (Text.suffixAt text s.scan.tokenStart) := by
  obtain ⟨ls, d, hpasses, hscan, -⟩ := scan_eq s
  have hkind : s.scan.kind = (d.lexeme s.variant).kind := by rw [hscan]; rfl
  have hstart : s.scan.tokenStart = d.pos := by rw [hscan]; rfl
  have hend : s.scan.tokenEnd = (d.advance (d.lexeme s.variant).length).pos := by rw [hscan]; rfl
  rw [hkind, hend, hstart, (hpasses.on hon).suffixAt, ne_eq, Cursor.lexeme_kind_eq_endOfFile]
  constructor
  · rintro ⟨hrest, hempty⟩
    refine (Cursor.lexeme_length_eq_zero s.variant hrest).1 (Nat.eq_zero_of_not_pos fun hpos => ?_)
    exact Nat.ne_of_gt (Cursor.pos_lt_advance hrest hpos) hempty
  · intro hbad
    have hrest : d.rest ≠ [] := by
      obtain ⟨ds, hds, -⟩ := hbad
      simp [hds]
    refine ⟨hrest, ?_⟩
    rw [(Cursor.lexeme_length_eq_zero s.variant hrest).2 hbad, Cursor.advance, List.take_zero]
    rfl

/-! ### Tokens in a row -/

/-- **A scanner that keeps trivia leaves nothing out.** The tokens behind the one at hand lie one
right behind the other up to the end of the text or to a bad escape. -/
theorem scans_tile (s : Scanner) (h : s.skipTrivia = false) (hon : s.cursor.On text) :
    ∃ n stop, Tile s.tokenEnd (s.scans n) stop ∧
      (stop = Text.bytes text ∨ Word.BadEscape (Text.suffixAt text stop)) := by
  by_cases hrest : s.cursor.rest = []
  · refine ⟨0, _, .nil _, .inl ?_⟩
    simpa [hrest, tokenEnd] using hon.pos_add
  by_cases hlength : (s.cursor.lexeme s.variant).length = 0
  · refine ⟨0, _, .nil _, .inr ?_⟩
    exact hon.suffixAt ▸ (Cursor.lexeme_length_eq_zero s.variant hrest).1 hlength
  have hpos := Nat.pos_of_ne_zero hlength
  have hcursor : s.scan.cursor = s.cursor.advance (s.cursor.lexeme s.variant).length := by
    rw [scan_of_keeps h]
    rfl
  have hkeeps : s.scan.skipTrivia = false := by
    rw [scan_of_keeps h]
    exact h
  have hshorter : s.scan.cursor.rest.length < s.cursor.rest.length := by
    rw [hcursor, Cursor.advance, List.length_drop]
    have := List.length_pos_iff.2 hrest
    omega
  obtain ⟨n, stop, htile, hstop⟩ := scans_tile s.scan hkeeps (hcursor ▸ hon.advance _)
  exact ⟨n + 1, stop, tile_scan h hrest hpos htile, hstop⟩
termination_by s.cursor.rest.length

/-- At a bad escape a scanner that keeps trivia stays. -/
lemma scans_stay (h : s.skipTrivia = false) (hbad : Word.BadEscape s.cursor.rest) (n : Nat) :
    ∀ t ∈ s.scans n, t.kind ≠ .endOfFile ∧ t.tokenStart = s.tokenEnd ∧ t.tokenEnd = s.tokenEnd := by
  induction n generalizing s with
  | zero => simp [scans]
  | succ n ih =>
    have hrest : s.cursor.rest ≠ [] := by
      obtain ⟨ds, hds, -⟩ := hbad
      simp [hds]
    have hscan := scan_of_keeps h
    rw [accept, (Cursor.lexeme_length_eq_zero s.variant hrest).2 hbad] at hscan
    have hcursor : s.scan.cursor = s.cursor := by
      rw [hscan]
      simp [Cursor.advance]
    have hend : s.scan.tokenEnd = s.tokenEnd := congrArg Cursor.pos hcursor
    have hlater := ih (s := s.scan) (by rw [hscan]; exact h) (hcursor ▸ hbad)
    rw [hend] at hlater
    refine List.forall_mem_cons.2 ⟨⟨?_, by rw [hscan]; rfl, hend⟩, hlater⟩
    rw [hscan]
    exact fun e => hrest ((Cursor.lexeme_kind_eq_endOfFile _ _).1 e)

/-! ### Operations -/

/-- What may be asked of a scanner. -/
inductive Operation where
  | scan | rescanGreater | rescanLess | rescanSlash | rescanTemplate
  | scanJsxToken | scanJsxIdentifier | scanJsxAttributeValue
  | save
  /-- Goes back to the snapshot that was taken as number `n`, counted from 0. -/
  | restore (n : Nat)
  | reset (pos : Nat)
deriving DecidableEq, Repr

/-- A scanner and the snapshots that have been taken of it. -/
structure Session where
  scanner : Scanner
  saved : List Snapshot

namespace Session

def start (text : Source) (variant : Variant) (skipTrivia : Bool) : Session :=
  ⟨ofSource text variant skipTrivia, []⟩

def read (x : Session) (f : Scanner → Scanner) : Session := ⟨f x.scanner, x.saved⟩

/-- Does what is asked, if it may be asked: only a closing brace is read again as a piece of a
template, only snapshots that have been taken are gone back to, and a scanner is only moved to
boundaries of its text. -/
def step? (x : Session) : Operation → Option Session
  | .scan => some (x.read Scanner.scan)
  | .rescanGreater => some (x.read Scanner.rescanGreater)
  | .rescanLess => some (x.read Scanner.rescanLess)
  | .rescanSlash => some (x.read Scanner.rescanSlash)
  | .rescanTemplate =>
    if x.scanner.kind = .closeBrace then some (x.read Scanner.rescanTemplate) else none
  | .scanJsxToken => some (x.read Scanner.scanJsxToken)
  | .scanJsxIdentifier => some (x.read Scanner.scanJsxIdentifier)
  | .scanJsxAttributeValue => some (x.read Scanner.scanJsxAttributeValue)
  | .save => some ⟨x.scanner, x.saved ++ [x.scanner.save]⟩
  | .restore n => x.saved[n]?.map fun y => x.read fun s => s.restore y
  | .reset pos =>
    if Text.IsBoundary x.scanner.source pos then some (x.read fun s => s.reset pos) else none

def run? (x : Session) (operations : List Operation) : Option Session :=
  operations.foldlM step? x

end Session

/-! ### What every operation preserves -/

variable {v : Variant} {skip : Bool} {x y : Session}

/-- The scanner reads the text in the way it was told to, and the token at hand lies inside it. -/
structure InUse (text : Source) (v : Variant) (skip : Bool) (s : Scanner) : Prop where
  alike : (ofSource text v skip).Alike s
  placed : s.Placed
  fullStart_on : Text.IsBoundary text s.fullStart

namespace InUse

lemma cursor_on (h : InUse text v skip s) : s.cursor.On text := by
  have hsource : s.source = text := h.alike.source
  exact hsource ▸ h.placed.cursor_on

lemma start_on (h : InUse text v skip s) : s.start.On text := by
  have hsource : s.source = text := h.alike.source
  exact hsource ▸ h.placed.start_on

/-- A reading starts behind the token at hand, or reads that one again. -/
lemma of_moves {f : Scanner → Scanner} [Moves f] (h : InUse text v skip s)
    (hfull : (f s).fullStart = s.tokenEnd ∨ (f s).fullStart = s.fullStart) :
    InUse text v skip (f s) where
  alike := h.alike.trans (Reading.alike s)
  placed := Moves.placed h.placed
  fullStart_on := by
    rcases hfull with e | e <;> rw [e]
    · exact h.cursor_on.isBoundary
    · exact h.fullStart_on

lemma rescanTemplate (h : InUse text v skip s) (hk : s.kind = .closeBrace) :
    InUse text v skip s.rescanTemplate :=
  ⟨h.alike.trans ⟨rfl, rfl, rfl⟩, h.placed.rescanTemplate hk, h.fullStart_on⟩

lemma reset {p : Nat} (h : InUse text v skip s) (hp : Text.IsBoundary s.source p) :
    InUse text v skip (s.reset p) := by
  have hon : (Cursor.ofOffset s.source (min p (Text.bytes s.source))).On s.source := by
    rw [Nat.min_eq_left hp.le_bytes]
    exact Cursor.on_ofOffset hp
  have hsource : s.source = text := h.alike.source
  exact ⟨h.alike.trans ⟨rfl, rfl, rfl⟩,
    ⟨hon, hon, Nat.le_refl _, Nat.le_refl _, fun e => by cases e⟩, hsource ▸ hon.isBoundary⟩

/-- Scanners that read a text in the same way go back to the same place. -/
lemma restore_eq {t : Scanner} (h : InUse text v skip s) (h' : InUse text v skip t)
    (z : Snapshot) : t.restore z = s.restore z := by
  simp only [Scanner.restore, h.alike.source, h'.alike.source, h.alike.variant, h'.alike.variant,
    h.alike.skipTrivia, h'.alike.skipTrivia]

end InUse

namespace Session

/-- The scanner is in use, and so it is at each of the snapshots. -/
structure Stands (text : Source) (v : Variant) (skip : Bool) (x : Session) : Prop where
  scanner : InUse text v skip x.scanner
  saved : ∀ z ∈ x.saved, InUse text v skip (x.scanner.restore z)

lemma start_stands (text : Source) (v : Variant) (skip : Bool) :
    Stands text v skip (start text v skip) where
  scanner := ⟨.refl _, ⟨Cursor.on_front text, Cursor.on_front text, Nat.le_refl _, Nat.le_refl _,
    fun e => by cases e⟩, Text.isBoundary_zero text⟩
  saved := by simp [start]

lemma Stands.read {f : Scanner → Scanner} (h : Stands text v skip x)
    (hf : InUse text v skip (f x.scanner)) : Stands text v skip (x.read f) :=
  ⟨hf, fun z hz => h.scanner.restore_eq hf z ▸ h.saved z hz⟩

/-- **Every operation keeps the scanner on its text.** -/
theorem Stands.step {a : Operation} (h : Stands text v skip x) (hstep : x.step? a = some y) :
    Stands text v skip y := by
  have hs := h.scanner
  have hread := x.scanner.rescan_fullStart
  cases a with
  | scan => exact Option.some.inj hstep ▸ h.read (hs.of_moves (.inl (scan_fullStart _)))
  | rescanGreater => exact Option.some.inj hstep ▸ h.read (hs.of_moves (.inr hread.1))
  | rescanLess => exact Option.some.inj hstep ▸ h.read (hs.of_moves (.inr hread.2.1))
  | rescanSlash => exact Option.some.inj hstep ▸ h.read (hs.of_moves (.inr hread.2.2.1))
  | rescanTemplate =>
    obtain ⟨hk, hstep⟩ := Option.ite_none_right_eq_some.1 hstep
    exact Option.some.inj hstep ▸ h.read (hs.rescanTemplate hk)
  | scanJsxToken =>
    exact Option.some.inj hstep ▸ h.read (hs.of_moves (.inl (scanJsxToken_fullStart _)))
  | scanJsxIdentifier => exact Option.some.inj hstep ▸ h.read (hs.of_moves (.inr hread.2.2.2))
  | scanJsxAttributeValue =>
    exact Option.some.inj hstep ▸ h.read (hs.of_moves (.inl (scanJsxAttributeValue_fullStart _)))
  | save =>
    cases hstep
    refine ⟨hs, fun z hz => ?_⟩
    rcases List.mem_append.1 hz with hz | hz
    · exact h.saved z hz
    · rw [List.mem_singleton.1 hz, (Alike.refl _).restore_save]
      exact hs
  | restore n =>
    obtain ⟨z, hz, rfl⟩ := Option.map_eq_some_iff.1 hstep
    exact h.read (h.saved z (List.mem_of_getElem? hz))
  | reset pos =>
    obtain ⟨hp, hstep⟩ := Option.ite_none_right_eq_some.1 hstep
    exact Option.some.inj hstep ▸ h.read (hs.reset hp)

theorem Stands.run (h : Stands text v skip x) (operations : List Operation)
    (hrun : x.run? operations = some y) : Stands text v skip y := by
  induction operations generalizing x with
  | nil =>
    cases hrun
    exact h
  | cons a operations ih =>
    rw [run?, List.foldlM_cons] at hrun
    obtain ⟨z, hz, hrest⟩ := Option.bind_eq_some_iff.1 hrun
    exact ih (h.step hz) hrest

end Session

/-! ### What is known of a scanner at any time -/

/-- The token at hand lies inside the text, and the next scan goes on behind it. -/
structure Behaves (text : Source) (skip : Bool) (s : Scanner) : Prop where
  fullStart_on : Text.IsBoundary text s.fullStart
  tokenStart_on : Text.IsBoundary text s.tokenStart
  tokenEnd_on : Text.IsBoundary text s.tokenEnd
  fullStart_le : s.fullStart ≤ s.tokenStart
  tokenStart_le : s.tokenStart ≤ s.tokenEnd
  tokenEnd_le : s.tokenEnd ≤ Text.bytes text
  /-- The next token starts behind the one at hand, its trivia included. -/
  scan_behind : s.scan.fullStart = s.tokenEnd
  /-- Trivia that is skipped is flagged exactly if it holds a line break. -/
  scan_breaks : skip = true → (s.scan.flags.precedingLineBreak = true ↔
    ∃ c ∈ Text.slice text s.scan.fullStart s.scan.tokenStart, Text.isLineBreak c = true)
  /-- A token is empty before the end of the text exactly at a bad escape. -/
  scan_empty : s.scan.kind ≠ .endOfFile ∧ s.scan.tokenEnd = s.scan.tokenStart ↔
    Word.BadEscape (Text.suffixAt text s.scan.tokenStart)
  /-- Where trivia is kept, the next tokens make up the text from the token at hand on, up to its
  end or to a bad escape. -/
  scans_tile : skip = false → ∃ n stop, Tile s.tokenEnd (s.scans n) stop ∧
    (stop = Text.bytes text ∨ Word.BadEscape (Text.suffixAt text stop))

/-- **Whatever has been asked of a scanner, the token at hand lies inside the text, and the next
scan goes on behind it.** -/
theorem session_behaves (text : Source) (v : Variant) (skip : Bool) (operations : List Operation)
    (h : (Session.start text v skip).run? operations = some x) : Behaves text skip x.scanner := by
  have hs := ((Session.start_stands text v skip).run operations h).scanner
  have hsource : x.scanner.source = text := hs.alike.source
  have hskip : x.scanner.skipTrivia = skip := hs.alike.skipTrivia
  exact {
    fullStart_on := hs.fullStart_on
    tokenStart_on := hs.start_on.isBoundary
    tokenEnd_on := hs.cursor_on.isBoundary
    fullStart_le := hs.placed.fullStart_le
    tokenStart_le := hs.placed.tokenStart_le
    tokenEnd_le := hsource ▸ hs.placed.tokenEnd_le
    scan_behind := scan_fullStart _
    scan_breaks := fun h => scan_breaks (hskip.trans h) hs.cursor_on
    scan_empty := scan_empty hs.cursor_on
    scans_tile := fun h => scans_tile x.scanner (hskip.trans h) hs.cursor_on }

/-- A template, a comment, and an escape that is no part of a name. -/
def templateAndEscape : Source := "\x60a$\x7b b \x7dc\x60 // d\n \\u".toList

/-- The closing brace is read again as the end of the template, twice, and the last scan stands at
the escape. -/
def templateTwice : List Operation :=
  [.scan, .scan, .save, .scan, .rescanTemplate, .restore 0, .scan, .rescanTemplate, .scan]

theorem templateTwice_behaves :
    ∃ x, (Session.start templateAndEscape .jsx true).run? templateTwice = some x ∧
      Behaves templateAndEscape true x.scanner := by
  have hsome : ((Session.start templateAndEscape .jsx true).run? templateTwice).isSome = true := by
    decide +kernel
  obtain ⟨x, hx⟩ := Option.isSome_iff_exists.1 hsome
  exact ⟨x, hx, session_behaves templateAndEscape .jsx true templateTwice hx⟩

/-- At a bad escape at its start, none of a text is ever covered by the tokens. -/
theorem bareEscape_uncovered :
    let s := ofSource "\\u".toList .standard false
    Text.bytes s.source = 2 ∧
      ∀ n, ∀ t ∈ s.scans n, t.kind ≠ .endOfFile ∧ t.tokenStart = 0 ∧ t.tokenEnd = 0 :=
  ⟨by decide, scans_stay rfl ⟨[], rfl, fun c hc => by cases hc⟩⟩

end Scanner

end EstreeLint
