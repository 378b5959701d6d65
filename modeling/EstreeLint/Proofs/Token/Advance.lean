import EstreeLint.Proofs.Token.Sound

/-!
Reading goes forward. A scan comes to the end of the text or moves its cursor over at least one
character, and so do the other ways to read the token behind the one at hand.
-/

namespace EstreeLint.Scanner

variable {text : Source} {s : Scanner}

/-! ### From any place of the text -/

lemma length_pos_of_shebang {cs : List Char} {l : Lexeme} (h : Lexeme.shebang? cs = some l) :
    0 < l.length := (shebang?_lexeme h).2

/-- What is read at a place of the text is not empty. -/
lemma length_read_pos (he : ValidEscapes text) {c : Char} {cs : List Char} (hs : c :: cs <:+ text)
    (v : Variant) (pos : Nat) :
    0 < ((if pos = 0 then Lexeme.shebang? (c :: cs) else none).getD (.read v c cs)).length := by
  cases hsh : if pos = 0 then Lexeme.shebang? (c :: cs) else none with
  | some l =>
    split at hsh
    · exact length_pos_of_shebang hsh
    · cases hsh
  | none =>
    simp only [Option.getD_none, Lexeme.read]
    cases ht : Lexeme.trivia? c cs with
    | some l => exact (Lexeme.trivia?_isTrivia ht).pos
    | none => exact (Lexeme.token_isToken v fun ds hds => he ds (hds ▸ hs)).pos

/-- Where a reading from the place of `c` on leaves the cursor. -/
structure From (c : Cursor) (t : Scanner) : Prop where
  suffix : t.cursor.rest <:+ c.rest
  pos_add : t.cursor.pos + Text.bytes t.cursor.rest = c.pos + Text.bytes c.rest
  advances : t.kind = .endOfFile ∨ c.pos < t.cursor.pos

lemma pos_add_advance (c : Cursor) (n : Nat) :
    (c.advance n).pos + Text.bytes (c.advance n).rest = c.pos + Text.bytes c.rest := by
  have h := Text.bytes_append (c.rest.take n) (c.rest.drop n)
  rw [List.take_append_drop] at h
  simp only [Cursor.advance, h]
  omega

lemma scanFrom_from (he : ValidEscapes text) (s : Scanner) (pos : Nat) {cs : List Char}
    (flags : TokenFlags) (hs : cs <:+ text) : From ⟨pos, cs⟩ (s.scanFrom pos cs flags) := by
  rw [scanFrom.eq_def]
  match cs with
  | [] => exact ⟨List.suffix_refl _, rfl, .inl rfl⟩
  | c :: cs =>
    dsimp only
    have hlen := length_read_pos he hs s.variant pos
    generalize (if pos = 0 then Lexeme.shebang? (c :: cs) else none).getD
      (.read s.variant c cs) = l at hlen ⊢
    obtain ⟨n, hn⟩ := Nat.exists_eq_succ_of_ne_zero (Nat.ne_of_gt hlen)
    have hadvance : Cursor.advance ⟨pos, c :: cs⟩ l.length =
        ⟨pos + Text.bytes ((c :: cs).take l.length), cs.drop (l.length - 1)⟩ := by
      simp [Cursor.advance, hn]
    have hlt : pos < (Cursor.advance ⟨pos, c :: cs⟩ l.length).pos :=
      Cursor.pos_lt_advance (c := ⟨pos, c :: cs⟩) (List.cons_ne_nil c cs) hlen
    have hadd := pos_add_advance ⟨pos, c :: cs⟩ l.length
    split
    · -- trivia: what comes after it is read from further on
      rw [hadvance] at hlt hadd
      have hdrop : cs.drop (l.length - 1) <:+ c :: cs :=
        (List.drop_suffix _ _).trans (List.suffix_cons _ _)
      obtain ⟨hrest, hsum, hpos⟩ := scanFrom_from he s
        (pos + Text.bytes ((c :: cs).take l.length)) (flags ∪ l.flags) (hdrop.trans hs)
      exact ⟨hrest.trans hdrop, hsum.trans hadd, hpos.imp_right (Nat.lt_trans hlt)⟩
    · exact ⟨List.drop_suffix _ _, hadd, .inr hlt⟩
termination_by cs.length
decreasing_by
  simp only [List.length_drop, List.length_cons]
  omega

/-- **A scan from any place of the text comes to its end or moves forward.** -/
theorem scan_from (he : ValidEscapes text) (hs : s.cursor.rest <:+ text) :
    From s.cursor s.scan := scanFrom_from he _ _ _ hs

/-- How many bytes a scanner has not read. -/
def unread (s : Scanner) : Nat := Text.bytes s.cursor.rest

lemma From.unread_lt {t : Scanner} (h : From s.cursor t) (hk : t.kind ≠ .endOfFile) :
    t.unread < s.unread := by
  have := h.pos_add
  have := h.advances.resolve_left hk
  unfold unread
  omega

lemma suffixAt_suffix (text : Source) (pos : Nat) : Text.suffixAt text pos <:+ text := by
  unfold Text.suffixAt
  cases h : Text.dropBytes? pos text with
  | none => exact List.nil_suffix
  | some v =>
    obtain ⟨u, rfl, -⟩ := Text.dropBytes?_eq_some_iff.1 h
    exact List.suffix_append u v

lemma bytes_le_of_suffix {u v : List Char} (h : u <:+ v) : Text.bytes u ≤ Text.bytes v := by
  obtain ⟨w, rfl⟩ := h
  rw [Text.bytes_append]
  exact Nat.le_add_left _ _

/-! ### From the token at hand -/

namespace Sound

lemma tokenStart_le (h : Sound text s) : s.tokenStart ≤ Text.bytes text := by
  have := h.start_on.pos_add
  unfold tokenStart
  omega

lemma tokenStart_le_tokenEnd (h : Sound text s) : s.tokenStart ≤ s.tokenEnd := by
  by_cases hk : s.kind = .endOfFile
  · obtain ⟨h₁, h₂⟩ := h.ends hk
    omega
  · exact Nat.le_of_lt (h.rest hk).2

end Sound

/-- A way to read the token behind the one at hand. -/
class Following (f : Scanner → Scanner) : Prop extends Reading f where
  sound {text : Source} {s : Scanner} : ValidEscapes text → Sound text s → Sound text (f s)
  fullStart (s : Scanner) : (f s).fullStart = s.tokenEnd

instance : Following scan where
  sound he h := h.scan he
  fullStart := scan_fullStart

instance : Following scanJsxToken where
  sound _ h := h.scanJsxToken
  fullStart := scanJsxToken_fullStart

instance : Following scanJsxAttributeValue where
  sound he h := h.scanJsxAttributeValue he
  fullStart := scanJsxAttributeValue_fullStart

section Following

variable {f : Scanner → Scanner} [Following f]

lemma Sound.tokenEnd_le_following (h : Sound text s) (he : ValidEscapes text) :
    s.tokenEnd ≤ (f s).tokenStart :=
  Following.fullStart (f := f) s ▸ (Following.sound (f := f) he h).fullStart_le

/-- **The token behind another starts later**, where the other is not the end of the text. -/
lemma Sound.tokenStart_lt_following (h : Sound text s) (he : ValidEscapes text)
    (hk : s.kind ≠ .endOfFile) : s.tokenStart < (f s).tokenStart :=
  Nat.lt_of_lt_of_le (h.rest hk).2 (h.tokenEnd_le_following he)

lemma Sound.tokenStart_le_following (h : Sound text s) (he : ValidEscapes text) :
    s.tokenStart ≤ (f s).tokenStart :=
  Nat.le_trans h.tokenStart_le_tokenEnd (h.tokenEnd_le_following he)

end Following

/-- A way to read the token at hand again. It starts where it did. -/
class Rereading (f : Scanner → Scanner) : Prop extends Reading f where
  sound {text : Source} {s : Scanner} : Sound text s → Sound text (f s)
  start (s : Scanner) : (f s).start = s.start

instance : Rereading rescanGreater where
  sound h := h.rescanGreater
  start s := by
    unfold rescanGreater
    split <;> rfl

instance : Rereading rescanLess where
  sound h := h.rescanLess
  start s := by
    unfold rescanLess
    split <;> rfl

instance : Rereading rescanSlash where
  sound h := h.rescanSlash
  start s := by
    unfold rescanSlash
    split <;> rfl

instance : Rereading scanJsxIdentifier where
  sound h := h.scanJsxIdentifier
  start s := by
    unfold scanJsxIdentifier
    split <;> rfl

end EstreeLint.Scanner
