import EstreeLint.Token.Scanner
import Mathlib.Tactic.Common

/-!
Two readers of trivia agree. The scanner reads it piece by piece, and `Trivia.scan` character by
character; both stop at the same place.
-/

namespace EstreeLint

/-! ### Places in a text -/

namespace Cursor

/-- The cursor stands between two characters of the text. -/
def On (text : Source) (c : Cursor) : Prop := ∃ u, text = u ++ c.rest ∧ c.pos = Text.bytes u

variable {text : Source} {c : Cursor}

lemma on_front (text : Source) : On text ⟨0, text⟩ := ⟨[], rfl, rfl⟩

lemma On.advance (h : c.On text) (n : Nat) : (c.advance n).On text := by
  obtain ⟨u, rfl, hp⟩ := h
  refine ⟨u ++ c.rest.take n, ?_, ?_⟩
  · simp [Cursor.advance]
  · simp [Cursor.advance, hp, Text.bytes_append]

lemma On.pos_add (h : c.On text) : c.pos + Text.bytes c.rest = Text.bytes text := by
  obtain ⟨u, rfl, hp⟩ := h
  rw [Text.bytes_append, hp]

lemma On.suffixAt (h : c.On text) : Text.suffixAt text c.pos = c.rest := by
  obtain ⟨u, rfl, hp⟩ := h
  rw [Text.suffixAt, hp, Text.dropBytes?_append, Option.getD_some]

lemma On.isBoundary (h : c.On text) : Text.IsBoundary text c.pos := by
  obtain ⟨u, rfl, hp⟩ := h
  rw [Text.IsBoundary, hp, Text.dropBytes?_append, Option.isSome_some]

lemma on_ofOffset {p : Nat} (h : Text.IsBoundary text p) : (ofOffset text p).On text := by
  obtain ⟨v, hv⟩ := Option.isSome_iff_exists.1 h
  obtain ⟨u, rfl, rfl⟩ := Text.dropBytes?_eq_some_iff.1 hv
  exact ⟨u, by simp [ofOffset, Text.suffixAt, hv], rfl⟩

lemma pos_le_advance (c : Cursor) (n : Nat) : c.pos ≤ (c.advance n).pos := Nat.le_add_right ..

lemma pos_lt_advance {n : Nat} (h : c.rest ≠ []) (hn : 0 < n) : c.pos < (c.advance n).pos := by
  obtain ⟨d, ds, e⟩ := List.exists_cons_of_ne_nil h
  obtain ⟨n, rfl⟩ := Nat.exists_eq_succ_of_ne_zero (Nat.ne_of_gt hn)
  have := d.utf8Size_pos
  simp only [advance, e, List.take_succ_cons, Text.bytes_cons]
  omega

end Cursor

/-! ### One piece of trivia at a time -/

namespace Trivia

variable {limit pos : Nat} {c : Char} {cs : List Char}

lemma scan_nil (limit pos : Nat) : scan limit pos [] = ([], min pos limit) := by
  rw [scan.eq_def]

lemma scan_of_le (h : limit ≤ pos) : scan limit pos cs = ([], limit) := by
  rw [scan.eq_def]
  cases cs with
  | nil => simp [h]
  | cons c cs => simp [h]

lemma scan_blank (h : pos < limit) (hc : Text.isBlank c = true ∨ Text.isLineBreak c = true) :
    scan limit pos (c :: cs) = scan limit (pos + c.utf8Size) cs := by
  rw [scan.eq_def]
  dsimp only
  rw [if_neg (by omega), if_pos (by simpa using hc)]

/-- White space and line breaks within the limit are passed over. -/
lemma scan_blanks {u : List Char} (h : ∀ c ∈ u, Text.isBlank c = true ∨ Text.isLineBreak c = true)
    (hle : pos + Text.bytes u ≤ limit) : scan limit pos (u ++ cs) =
      scan limit (pos + Text.bytes u) cs := by
  induction u generalizing pos with
  | nil => rfl
  | cons c u ih =>
    have hpos := c.utf8Size_pos
    rw [Text.bytes_cons] at hle ⊢
    rw [List.cons_append, scan_blank (by omega) (h c (by simp)),
      ih (fun d hd => h d (by simp [hd])) (by omega), Nat.add_assoc]

lemma not_blank_slash : ¬ (Text.isBlank '/' || Text.isLineBreak '/') = true := by decide

lemma scan_line (h : pos + 1 < limit) :
    let body := lineBody (limit - (pos + 2)) cs
    let stop := pos + 2 + Text.bytes body
    scan limit pos ('/' :: '/' :: cs) =
      (⟨pos, stop, false, stop < limit⟩ :: (scan limit stop (cs.drop body.length)).1,
        (scan limit stop (cs.drop body.length)).2) := by
  rw [scan.eq_def]
  dsimp only
  rw [if_neg (by omega), if_neg not_blank_slash, if_pos (by simp [h])]
  rfl

lemma scan_block {body : List Char} (h : pos + 1 < limit)
    (hb : blockBody? (limit - (pos + 2)) cs = some body) :
    let stop := pos + 2 + Text.bytes body + 2
    let after := cs.drop (body.length + 2)
    scan limit pos ('/' :: '*' :: cs) =
      (⟨pos, stop, true, after.head?.any Text.isLineBreak⟩ :: (scan limit stop after).1,
        (scan limit stop after).2) := by
  rw [scan.eq_def]
  dsimp only
  rw [if_neg (by omega), if_neg not_blank_slash, if_pos (by simp [h])]
  simp [hb]

lemma scan_open_block (h : pos + 1 < limit) (hb : blockBody? (limit - (pos + 2)) cs = none) :
    ∃ endsLine, scan limit pos ('/' :: '*' :: cs) = ([⟨pos, limit, true, endsLine⟩], limit) := by
  rw [scan.eq_def]
  dsimp only
  rw [if_neg (by omega), if_neg not_blank_slash, if_pos (by simp [h])]
  simp [hb]

/-- Two characters that open a comment. -/
def opensComment (c : Char) (cs : List Char) : Bool :=
  c == '/' && (cs.head? == some '/' || cs.head? == some '*')

lemma scan_other (h : pos < limit) (hc : ¬ (Text.isBlank c || Text.isLineBreak c) = true)
    (ho : opensComment c cs = true → limit ≤ pos + 1) : scan limit pos (c :: cs) = ([], pos) := by
  rw [scan.eq_def]
  dsimp only
  rw [if_neg (by omega), if_neg hc]
  split
  · next hs =>
    simp only [Bool.and_eq_true, beq_iff_eq, decide_eq_true_eq] at hs
    obtain ⟨rfl, hlt⟩ := hs
    split
    · exact absurd (ho (by simp [opensComment])) (by omega)
    · exact absurd (ho (by simp [opensComment])) (by omega)
    · rfl
  · rfl

/-! ### Where trivia stops -/

/-- Where the trivia at the front of a text stops, if the text starts at `pos`. -/
def stop (pos : Nat) (cs : List Char) : Nat := (scan (pos + Text.bytes cs) pos cs).2

lemma stop_nil (pos : Nat) : stop pos [] = pos := by simp [stop, scan_nil]

lemma stop_blanks {u : List Char} (pos : Nat)
    (h : ∀ c ∈ u, Text.isBlank c = true ∨ Text.isLineBreak c = true) :
    stop pos (u ++ cs) = stop (pos + Text.bytes u) cs := by
  unfold stop
  rw [Text.bytes_append, scan_blanks h (by omega), Nat.add_assoc]

/-- With bytes enough for it, a line comment runs up to the line break. -/
lemma lineBody_eq {n : Nat} (h : Text.bytes (cs.takeWhile (!Text.isLineBreak ·)) ≤ n) :
    lineBody n cs = cs.takeWhile (!Text.isLineBreak ·) := by
  induction cs generalizing n with
  | nil => cases n <;> rfl
  | cons c cs ih =>
    have := c.utf8Size_pos
    cases hc : Text.isLineBreak c with
    | true => cases n <;> simp [lineBody, hc]
    | false =>
      have htake : (c :: cs).takeWhile (!Text.isLineBreak ·) =
          c :: cs.takeWhile (!Text.isLineBreak ·) := by simp [hc]
      rw [htake, Text.bytes_cons] at h
      obtain ⟨n, rfl⟩ := Nat.exists_eq_succ_of_ne_zero (show n ≠ 0 by omega)
      rw [htake, lineBody, ih (by omega), if_neg (by simp [hc])]

lemma bytes_slash : '/'.utf8Size = 1 := by decide

lemma bytes_star : '*'.utf8Size = 1 := by decide

lemma stop_line {body after : List Char} (pos : Nat)
    (h : cs.takeWhile (!Text.isLineBreak ·) = body) (hcs : cs = body ++ after) :
    stop pos ('/' :: '/' :: cs) = stop (pos + 2 + Text.bytes body) after := by
  have hsum : Text.bytes cs = Text.bytes body + Text.bytes after := by
    rw [hcs, Text.bytes_append]
  unfold stop
  simp only [Text.bytes_cons, bytes_slash]
  rw [scan_line (by omega), lineBody_eq (by rw [h]; omega), h, hcs, List.drop_left, ← hcs, hsum]
  dsimp only
  congr 2
  omega

/-- A closed comment ends with its closing mark. -/
lemma blockBody?_eq_append {n : Nat} {body : List Char} (h : blockBody? n cs = some body) :
    ∃ after, cs = body ++ '*' :: '/' :: after ∧ Text.bytes body + 2 ≤ n := by
  induction cs generalizing n body with
  | nil => simp [blockBody?] at h
  | cons c cs ih =>
    rw [blockBody?] at h
    split at h
    · next hc =>
      simp only [Bool.and_eq_true, beq_iff_eq] at hc
      obtain ⟨rfl, hc⟩ := hc
      obtain ⟨after, rfl⟩ := List.head?_eq_some_iff.1 hc
      split at h
      · cases h
        exact ⟨after, rfl, by simpa⟩
      · cases h
    · split at h
      · obtain ⟨tail, ht, rfl⟩ := Option.map_eq_some_iff.1 h
        obtain ⟨after, rfl, hn⟩ := ih ht
        exact ⟨after, rfl, by rw [Text.bytes_cons]; omega⟩
      · cases h

/-- A closed comment is found with any number of bytes that it fits in. -/
lemma blockBody?_of_le {m n : Nat} {body : List Char} (h : blockBody? m cs = some body)
    (hn : Text.bytes body + 2 ≤ n) : blockBody? n cs = some body := by
  induction cs generalizing m n body with
  | nil => simp [blockBody?] at h
  | cons c cs ih =>
    have hpos := c.utf8Size_pos
    rw [blockBody?] at h ⊢
    split at h
    · next hc =>
      split at h
      · cases h
        rw [if_pos hc, if_pos (by simpa using hn)]
      · cases h
    · next hc =>
      split at h
      · obtain ⟨tail, ht, rfl⟩ := Option.map_eq_some_iff.1 h
        rw [Text.bytes_cons] at hn
        rw [if_neg hc, if_pos (by omega), ih ht (by omega), Option.map_some]
      · cases h

lemma stop_block {body after : List Char} (pos : Nat) (hcs : cs = body ++ '*' :: '/' :: after)
    (h : blockBody? (Text.bytes cs) cs = some body) :
    stop pos ('/' :: '*' :: cs) = stop (pos + 2 + Text.bytes body + 2) after := by
  have hsum : Text.bytes cs = Text.bytes body + 2 + Text.bytes after := by
    simp only [hcs, Text.bytes_append, Text.bytes_cons, bytes_slash, bytes_star]
    omega
  have hbudget : pos + (1 + (1 + Text.bytes cs)) - (pos + 2) = Text.bytes cs := by omega
  unfold stop
  simp only [Text.bytes_cons, bytes_slash, bytes_star]
  rw [scan_block (by omega) (hbudget ▸ h)]
  dsimp only
  rw [show cs.drop (body.length + 2) = after by simp [hcs]]
  congr 2
  omega

lemma stop_open_block (pos : Nat) (h : blockBody? (Text.bytes cs) cs = none) :
    stop pos ('/' :: '*' :: cs) = pos + Text.bytes ('/' :: '*' :: cs) := by
  have hbudget : pos + (1 + (1 + Text.bytes cs)) - (pos + 2) = Text.bytes cs := by omega
  unfold stop
  simp only [Text.bytes_cons, bytes_slash, bytes_star]
  have hopen : pos + 1 < pos + (1 + (1 + Text.bytes cs)) := by omega
  obtain ⟨b, hb⟩ := scan_open_block hopen (hbudget.symm ▸ h)
  rw [hb]

end Trivia

/-! ### The pieces that the scanner reads -/

namespace Lexeme

open Trivia

variable {c : Char} {cs : List Char} {l : Lexeme}

/-- A piece of trivia at the front of a text: the front `u` of it with the same stop after it. -/
structure IsTrivia (c : Char) (cs : List Char) (l : Lexeme) : Prop where
  kind : l.kind.isTrivia = true
  pos : 0 < l.length
  stop (p : Nat) : Trivia.stop p (c :: cs) =
    Trivia.stop (p + Text.bytes ((c :: cs).take l.length)) ((c :: cs).drop l.length)

lemma isTrivia_of_append {u v : List Char} (hk : l.kind.isTrivia = true) (hu : 0 < u.length)
    (hcs : c :: cs = u ++ v) (hl : l.length = u.length)
    (hs : ∀ p, Trivia.stop p (c :: cs) = Trivia.stop (p + Text.bytes u) v) : IsTrivia c cs l where
  kind := hk
  pos := hl ▸ hu
  stop p := by rw [hl, hs p, hcs, List.take_left, List.drop_left]

lemma isTrivia_blockComment : IsTrivia '/' ('*' :: cs) (blockComment cs) := by
  unfold blockComment
  cases h : blockBody? (Text.bytes cs) cs with
  | some body =>
    obtain ⟨after, hcs, -⟩ := blockBody?_eq_append h
    refine isTrivia_of_append (u := '/' :: '*' :: body ++ ['*', '/']) (v := after) (by rfl)
      (by simp) (by simp [hcs]) (by simp) fun p => ?_
    rw [stop_block p hcs h]
    simp only [Text.bytes_cons, Text.bytes_append, bytes_slash, bytes_star, List.cons_append,
      Text.bytes_nil]
    congr 1
    omega
  | none =>
    refine isTrivia_of_append (u := '/' :: '*' :: cs) (v := []) (by rfl) (by simp) (by simp)
      (by simp) fun p => ?_
    rw [stop_open_block p h, stop_nil]

/-- A line behind its two opening characters, up to the line break. -/
lemma take_line (a b : Char) (ds : List Char) :
    (a :: b :: ds).take (2 + (ds.takeWhile (!Text.isLineBreak ·)).length) =
      a :: b :: ds.takeWhile (!Text.isLineBreak ·) := by
  rw [Nat.add_comm, List.take_succ_cons, List.take_succ_cons,
    ← List.prefix_iff_eq_take.1 (List.takeWhile_prefix _)]

lemma isBlank_of_ascii {d : Char} (h : isAsciiBlank d = true) :
    Text.isBlank d = true ∧ Text.isLineBreak d = false := by
  simp only [isAsciiBlank, Bool.or_eq_true, beq_iff_eq] at h
  rcases h with ((rfl | rfl) | rfl) | rfl <;> decide

/-- A run `u` of white space and line breaks at the front of a text, as one piece of trivia. -/
structure IsBlanks (u : List Char) (l : Lexeme) : Prop where
  pos : 0 < u.length
  length : l.length = u.length
  blank : ∀ d ∈ u, Text.isBlank d = true ∨ Text.isLineBreak d = true
  kind : l.kind = .newLineTrivia ∨ l.kind = .whitespaceTrivia
  breaks : l.flags.precedingLineBreak = u.any Text.isLineBreak

/-- **What a piece of trivia is**: white space and line breaks, a line comment, or a block
comment. -/
lemma trivia?_cases (h : trivia? c cs = some l) :
    (∃ u v, c :: cs = u ++ v ∧ IsBlanks u l) ∨
    (∃ ds, c :: cs = '/' :: '/' :: ds ∧
      l = ⟨.singleLineCommentTrivia, 2 + (ds.takeWhile (!Text.isLineBreak ·)).length, [], {}⟩) ∨
    ∃ ds, c :: cs = '/' :: '*' :: ds ∧ l = blockComment ds := by
  unfold trivia? at h
  split at h
  · next hc =>
    simp only [Bool.and_eq_true, beq_iff_eq] at hc
    obtain ⟨rfl, hc⟩ := hc
    obtain ⟨ds, rfl⟩ := List.head?_eq_some_iff.1 hc
    cases h
    refine .inl ⟨['\r', '\n'], ds, rfl, by simp, rfl, ?_, .inl rfl, rfl⟩
    exact List.forall_mem_cons.2 ⟨.inr rfl, List.forall_mem_singleton.2 (.inr rfl)⟩
  split at h
  · next hc =>
    cases h
    exact .inl ⟨[c], cs, rfl, by simp, rfl, by simp [hc], .inl rfl, by simp [hc]⟩
  next hbreak =>
  rw [Bool.not_eq_true] at hbreak
  split at h
  · next hc =>
    cases h
    have hall : ∀ d ∈ c :: cs.takeWhile isAsciiBlank, isAsciiBlank d = true :=
      List.forall_mem_cons.2 ⟨hc, List.all_eq_true.1 List.all_takeWhile⟩
    refine .inl ⟨c :: cs.takeWhile isAsciiBlank, cs.dropWhile isAsciiBlank, by simp, by simp,
      by simp; omega, fun d hd => .inl (isBlank_of_ascii (hall d hd)).1, .inr rfl, ?_⟩
    exact (List.any_eq_false.2 fun d hd => by simp [(isBlank_of_ascii (hall d hd)).2]).symm
  split at h
  · next hc =>
    cases h
    exact .inl ⟨[c], cs, rfl, by simp, rfl, by simp [hc], .inr rfl, by simp [hbreak]⟩
  split at h
  · next hc =>
    obtain rfl : c = '/' := by simpa using hc
    split at h
    · next ds _ => exact .inr (.inl ⟨ds, rfl, (Option.some.inj h).symm⟩)
    · next ds _ => exact .inr (.inr ⟨ds, rfl, (Option.some.inj h).symm⟩)
    · cases h
  · cases h

/-- **A piece of trivia leaves the place where trivia stops as it is.** -/
lemma trivia?_isTrivia (h : trivia? c cs = some l) : IsTrivia c cs l := by
  rcases trivia?_cases h with ⟨u, v, hcs, hu⟩ | ⟨ds, hcs, rfl⟩ | ⟨ds, hcs, rfl⟩
  · refine isTrivia_of_append ?_ hu.pos hcs hu.length fun p => by rw [hcs, stop_blanks p hu.blank]
    rcases hu.kind with hk | hk <;> rw [hk] <;> rfl
  · obtain ⟨rfl, rfl⟩ := List.cons.inj hcs
    refine isTrivia_of_append (u := '/' :: '/' :: ds.takeWhile (!Text.isLineBreak ·))
      (v := ds.dropWhile (!Text.isLineBreak ·)) (by rfl) (by simp) (by simp) (by simp; omega)
      fun p => ?_
    rw [stop_line p rfl (List.takeWhile_append_dropWhile ..).symm]
    simp only [Text.bytes_cons, bytes_slash]
    congr 1
    omega
  · obtain ⟨rfl, rfl⟩ := List.cons.inj hcs
    exact isTrivia_blockComment

/-- Where no piece of trivia starts, trivia stops. -/
lemma stop_of_trivia?_eq_none (h : trivia? c cs = none) (p : Nat) :
    Trivia.stop p (c :: cs) = p := by
  have := c.utf8Size_pos
  unfold Trivia.stop
  suffices hn : ¬ (Text.isBlank c || Text.isLineBreak c) = true ∧ opensComment c cs = false by
    rw [scan_other (by rw [Text.bytes_cons]; omega) hn.1 (by simp [hn.2])]
  unfold trivia? at h
  split at h
  · cases h
  split at h
  · cases h
  split at h
  · cases h
  split at h
  · cases h
  · next hl _ hb =>
    refine ⟨by simp [hl, hb], ?_⟩
    split at h
    · next hc =>
      split at h
      · cases h
      · cases h
      · next h₁ h₂ =>
        cases cs with
        | nil => simp [opensComment]
        | cons d ds =>
          have hd : d ≠ '/' ∧ d ≠ '*' := ⟨fun e => h₁ ds (by rw [e]), fun e => h₂ ds (by rw [e])⟩
          simp [opensComment, hd]
    · next hc => simp [opensComment, hc]

end Lexeme

end EstreeLint
