import EstreeLint.Proofs.Text.Lines
import EstreeLint.Proofs.Token.Lexeme

/-!
What the scanner reads off the front of a text ends at a seam: it does not part a carriage return
from the line feed behind it. A reader goes from seam to seam, so its length is a sum of lengths
that each end at one.
-/

namespace EstreeLint

namespace Text

/-- The first `n` characters and what comes behind them meet at a seam. -/
def SeamAt (cs : List Char) (n : Nat) : Prop := Seam (cs.take n) (cs.drop n)

variable {u v w cs : List Char} {c : Char} {m n : Nat}

lemma seam_of_not_mem (h : '\r' ∉ u) : Seam u v := fun hs => h (List.mem_of_getLast? hs.1)

lemma seam_of_head (h : v.head? ≠ some '\n') : Seam u v := fun hs => h hs.2

lemma Seam.append (h : v = [] → Seam u w) (h' : Seam v w) : Seam (u ++ v) w := by
  cases v with
  | nil =>
    rw [List.append_nil]
    exact h rfl
  | cons c v =>
    have hlast : (u ++ c :: v).getLast? = (c :: v).getLast? := by
      simp [List.getLast?_cons]
    unfold Seam at *
    rwa [hlast]

lemma seamAt_zero (cs : List Char) : SeamAt cs 0 := by simp [SeamAt, Seam]

lemma seamAt_append (h : Seam u v) : SeamAt (u ++ v) u.length := by
  unfold SeamAt
  rwa [List.take_left, List.drop_left]

/-- Behind a seam the text goes on to another. Where it stops at once the first one is needed. -/
lemma SeamAt.add_of (h : n = 0 ∨ cs.drop m = [] → SeamAt cs m) (h' : SeamAt (cs.drop m) n) :
    SeamAt cs (m + n) := by
  unfold SeamAt at *
  rw [List.take_add, ← List.drop_drop]
  refine Seam.append (fun he => ?_) h'
  have hm := h (List.take_eq_nil_iff.1 he)
  rcases List.take_eq_nil_iff.1 he with rfl | hnil
  · exact hm
  · rw [hnil] at hm ⊢
    rwa [List.drop_nil]

lemma SeamAt.add (h : SeamAt cs m) (h' : SeamAt (cs.drop m) n) : SeamAt cs (m + n) :=
  .add_of (fun _ => h) h'

lemma seamAt_one (h : c = '\r' → cs.head? ≠ some '\n') : SeamAt (c :: cs) 1 := by
  rintro ⟨hc, hs⟩
  exact h (by simpa using hc) (by simpa using hs)

lemma SeamAt.cons (h : c ≠ '\r') (h' : SeamAt cs n) : SeamAt (c :: cs) (1 + n) :=
  .add (seamAt_one fun e => absurd e h) h'

lemma SeamAt.succ (h : c ≠ '\r') (h' : SeamAt cs n) : SeamAt (c :: cs) (n + 1) :=
  Nat.add_comm 1 n ▸ h'.cons h

lemma seamAt_of_forall (h : ∀ c ∈ cs.take n, c ≠ '\r') : SeamAt cs n :=
  seam_of_not_mem fun hm => h _ hm rfl

/-- A run of characters that hold of a test which a carriage return fails. -/
lemma seamAt_takeWhile (p : Char → Bool) (h : p '\r' = false) (cs : List Char) :
    SeamAt cs (cs.takeWhile p).length := by
  refine seamAt_of_forall fun c hc e => ?_
  rw [← List.prefix_iff_eq_take.1 (List.takeWhile_prefix p)] at hc
  have hp := List.all_eq_true.1 List.all_takeWhile c hc
  rw [e, h] at hp
  cases hp

/-- A run that stops where the text does, or before a character that is no line feed. -/
lemma seamAt_takeWhile_of_stop (p : Char → Bool) (h : p '\n' = true) (cs : List Char) :
    SeamAt cs (cs.takeWhile p).length := by
  have hsplit : cs.takeWhile p ++ cs.dropWhile p = cs := List.takeWhile_append_dropWhile ..
  have hseam : Seam (cs.takeWhile p) (cs.dropWhile p) := by
    refine seam_of_head fun hs => ?_
    have hfails := List.head?_dropWhile_not p cs
    rw [hs] at hfails
    simp [h] at hfails
  have hat := seamAt_append hseam
  rwa [hsplit] at hat

end Text

open Text (SeamAt)

/-! ### Words and numbers -/

namespace Word

lemma ne_return_of_hexDigit {c : Char} (h : isHexDigit c = true) : c ≠ '\r' := by
  rintro rfl
  exact absurd h (by decide)

lemma seamAt_of_hexDigits? {count code : Nat} {cs : List Char}
    (h : hexDigits? count cs = some code) : SeamAt cs count := by
  unfold hexDigits? at h
  dsimp only at h
  split at h
  · next hd =>
    exact Text.seamAt_of_forall fun c hc => ne_return_of_hexDigit (List.all_eq_true.1 hd.2 c hc)
  · cases h

lemma bracedEscape_seamAt (cs : List Char) : SeamAt ('\x7b' :: cs) (bracedEscape cs).length := by
  unfold bracedEscape
  dsimp only
  split
  · exact Text.seamAt_zero _
  · next hd =>
    simp only [Bool.or_eq_true, bne_iff_ne, ne_eq, not_or, not_not] at hd
    obtain ⟨ds, hds⟩ := List.head?_eq_some_iff.1 hd.1.2
    have hclose : SeamAt (cs.drop (cs.takeWhile isHexDigit).length) 1 := by
      rw [hds]
      exact Text.seamAt_one fun e => by cases e
    have hrun := (Text.seamAt_takeWhile isHexDigit (by decide) cs).add hclose
    have hall := hrun.cons (c := '\x7b') (by decide)
    have hlength : (cs.takeWhile isHexDigit).length + 2 =
        1 + ((cs.takeWhile isHexDigit).length + 1) := by omega
    exact hlength ▸ hall

/-- What is read behind `\u` ends at a seam. -/
lemma unicodeEscape_seamAt (cs : List Char) : SeamAt cs (unicodeEscape cs).length := by
  unfold unicodeEscape
  split
  · exact bracedEscape_seamAt _
  · split
    · exact Text.seamAt_zero _
    · next code hcode =>
      have hfirst := seamAt_of_hexDigits? hcode
      split
      · next low hlow =>
        split at hlow
        · unfold lowSurrogate? at hlow
          split at hlow
          · next _ ds hds =>
            obtain ⟨hdigits, -⟩ := Option.filter_eq_some_iff.1 hlow
            have hsecond := seamAt_of_hexDigits? hdigits
            refine hfirst.add (m := 4) (n := 6) ?_
            rw [hds]
            exact (hsecond.cons (by decide)).cons (n := 5) (by decide)
          · simp at hlow
        · simp at hlow
      · exact hfirst

lemma parts_seamAt (cs : List Char) : SeamAt cs (parts cs).length := by
  fun_induction parts cs with
  | case1 => exact Text.seamAt_zero _
  | case2 c cs hc ih =>
    refine ih.cons fun e => ?_
    rw [e] at hc
    exact absurd hc (by decide +kernel)
  | case3 c hc hesc cs e d hd hpart ih =>
    rw [beq_iff_eq] at hesc
    subst hesc
    have hrest : SeamAt cs (e.length + (parts (cs.drop e.length)).length) :=
      (unicodeEscape_seamAt cs).add ih
    have hall := (hrest.cons (c := 'u') (by decide)).cons (c := '\\') (by decide)
    simp only [Parts.cons]
    rwa [show 2 + e.length + (parts (cs.drop e.length)).length =
      1 + (1 + (e.length + (parts (cs.drop e.length)).length)) by omega]
  | case4 => exact Text.seamAt_zero _
  | case5 => exact Text.seamAt_zero _
  | case6 => exact Text.seamAt_zero _
  | case7 => exact Text.seamAt_zero _

end Word

namespace Number

lemma digitRun_seamAt {isDigit : Char → Bool} (h : isDigit '\r' = false) (cs : List Char) :
    SeamAt cs (digitRun isDigit cs).1 := by
  induction cs with
  | nil => exact Text.seamAt_zero _
  | cons c cs ih =>
    unfold digitRun
    split
    · next hc =>
      have hne : c ≠ '\r' := by
        rintro rfl
        rw [h] at hc
        cases hc
      exact ih.succ hne
    · split
      · next hc =>
        have hne : c ≠ '\r' := by
          rintro rfl
          exact absurd hc (by simp)
        exact ih.succ hne
      · exact Text.seamAt_zero _

lemma sign_seamAt (cs : List Char) :
    SeamAt cs (if cs.head? == some '+' || cs.head? == some '-' then 1 else 0) := by
  split
  · next hs =>
    cases cs with
    | nil => exact absurd hs (by decide)
    | cons c cs =>
      refine Text.seamAt_one ?_
      rintro rfl
      exact absurd hs (by simp)
  · exact Text.seamAt_zero _

lemma exponent_seamAt (cs : List Char) : SeamAt cs (exponent cs).1 := by
  cases cs with
  | nil => exact Text.seamAt_zero _
  | cons e cs =>
    have hsign := sign_seamAt cs
    unfold exponent
    dsimp only
    generalize (if cs.head? == some '+' || cs.head? == some '-' then 1 else 0) = sign at hsign ⊢
    split
    · next he =>
      have hne : e ≠ '\r' := by
        rintro rfl
        exact absurd he (by decide)
      split
      · rw [Nat.add_assoc]
        exact (hsign.add (digitRun_seamAt (by decide) _)).cons hne
      · exact Text.seamAt_zero _
    · exact Text.seamAt_zero _

lemma fraction_seamAt (cs : List Char) :
    SeamAt cs (if cs.head? == some '.' then
      ((digitRun Char.isDigit (cs.drop 1)).1 + 1, (digitRun Char.isDigit (cs.drop 1)).2)
    else (0, false)).1 := by
  split
  · next hdot =>
    obtain ⟨ds, rfl⟩ := List.head?_eq_some_iff.1 (by simpa using hdot)
    exact (digitRun_seamAt (by decide) ds).succ (by decide)
  · exact Text.seamAt_zero _

lemma decimal_seamAt (cs : List Char) : SeamAt cs (decimal cs).1 := by
  have hwhole : SeamAt cs (digitRun Char.isDigit cs).1 := digitRun_seamAt (by decide) cs
  unfold decimal
  dsimp only
  generalize (digitRun Char.isDigit cs).1 = whole at hwhole
  refine Text.SeamAt.add (hwhole.add (fraction_seamAt _)) ?_
  rw [← List.drop_drop]
  exact exponent_seamAt _

lemma radixOf?_return {c : Char} {x : (Char → Bool) × TokenFlags} (h : radixOf? c = some x) :
    c ≠ '\r' ∧ x.1 '\r' = false := by
  unfold radixOf? at h
  split at h
  · next hc =>
    cases h
    exact ⟨by rintro rfl; exact absurd hc (by decide), by decide⟩
  split at h
  · next hc =>
    cases h
    exact ⟨by rintro rfl; exact absurd hc (by decide), by decide⟩
  split at h
  · next hc =>
    cases h
    exact ⟨by rintro rfl; exact absurd hc (by decide), by decide⟩
  · cases h

lemma magnitude_seamAt (cs : List Char) : SeamAt cs (magnitude cs).1 := by
  unfold magnitude
  split
  · next c cs =>
    split
    · next isDigit flags hradix =>
      obtain ⟨hc, hdigit⟩ := radixOf?_return hradix
      have hall := ((digitRun_seamAt hdigit cs).cons hc).cons (c := '0') (by decide)
      rw [← Nat.add_assoc] at hall
      exact hall
    · split
      · exact (digitRun_seamAt (by decide) _).cons (by decide)
      · exact decimal_seamAt _
  · exact decimal_seamAt _

lemma lexeme_seamAt (cs : List Char) : SeamAt cs (lexeme cs).length := by
  have hmagnitude := magnitude_seamAt cs
  unfold lexeme
  dsimp only
  split
  · next hbig =>
    simp only [Bool.and_eq_true, beq_iff_eq] at hbig
    obtain ⟨ds, hds⟩ := List.head?_eq_some_iff.1 hbig.1.1.1
    refine hmagnitude.add (n := 1) ?_
    rw [hds]
    exact Text.seamAt_one fun e => by cases e
  · exact hmagnitude

end Number

/-! ### Strings and templates -/

namespace Quoted

lemma octalEscape_seamAt {c : Char} (cs : List Char) (hc : Number.isOctalDigit c = true) :
    SeamAt (c :: cs) (octalEscape c cs).length := by
  have hne : c ≠ '\r' := by
    rintro rfl
    exact absurd hc (by decide)
  unfold octalEscape
  dsimp only
  rw [List.length_cons, Nat.add_comm]
  refine Text.SeamAt.cons hne (Text.seamAt_of_forall fun d hd e => ?_)
  have hopen : (cs.take (if c ≤ '3' then 2 else 1)).takeWhile Number.isOctalDigit <+: cs :=
    (List.takeWhile_prefix _).trans (List.take_prefix _ _)
  rw [← List.prefix_iff_eq_take.1 hopen] at hd
  have hdigit := List.all_eq_true.1 List.all_takeWhile d hd
  rw [e] at hdigit
  exact absurd hdigit (by decide)

lemma unicodeEscape_seamAt (cs : List Char) : SeamAt ('u' :: cs) (unicodeEscape cs).length := by
  have hescape := Word.unicodeEscape_seamAt cs
  unfold unicodeEscape
  dsimp only
  split
  · exact hescape.cons (by decide)
  · have htake : SeamAt cs (cs.take (Word.unicodeEscape cs).length).length := by
      rcases Nat.le_total (Word.unicodeEscape cs).length cs.length with h | h
      · rwa [List.length_take_of_le h]
      · rw [List.take_of_length_le h]
        exact Text.seam_of_head (by simp)
    exact htake.succ (by decide)

lemma hexEscape_seamAt (cs : List Char) : SeamAt ('x' :: cs) (hexEscape cs).length := by
  unfold hexEscape
  split
  · next h =>
    obtain ⟨code, hcode, -⟩ := Option.bind_eq_some_iff.1 h
    exact (Word.seamAt_of_hexDigits? hcode).cons (n := 2) (by decide)
  · exact Text.seamAt_one fun e => by cases e

/-- What is read behind a backslash ends at a seam: a line break is taken whole. -/
lemma escape_seamAt (isTemplate : Bool) (cs : List Char) :
    SeamAt cs (escape isTemplate cs).length := by
  unfold escape
  split
  · exact Text.seamAt_zero _
  next c cs =>
  split
  · next h =>
    refine Text.seamAt_one ?_
    rintro rfl
    exact absurd h (by simp)
  split
  · next h => exact octalEscape_seamAt cs (Bool.and_eq_true_iff.1 h).1
  split
  · next h =>
    refine Text.seamAt_one ?_
    rintro rfl
    exact absurd h (by simp)
  split
  · next h =>
    rw [beq_iff_eq] at h
    subst h
    exact unicodeEscape_seamAt cs
  split
  · next h =>
    rw [beq_iff_eq] at h
    subst h
    exact hexEscape_seamAt cs
  split
  · next h =>
    rw [beq_iff_eq] at h
    subst h
    dsimp only
    split
    · next hn =>
      obtain ⟨ds, rfl⟩ := List.head?_eq_some_iff.1 (by simpa using hn)
      exact fun hs => absurd hs.1 (by simp)
    · next hn => exact Text.seamAt_one fun _ => by simpa using hn
  next h =>
  have hone : SeamAt (c :: cs) 1 := Text.seamAt_one fun e => absurd (by simpa using e) h
  split
  · exact hone
  · exact hone

/-- A string ends at its quote, at the end of the text, or before a line break; a line break in a
verbatim one is read over. -/
lemma stringBody_seamAt {quote : Char} (hq : quote ≠ '\r') (verbatim : Bool) (cs : List Char) :
    SeamAt cs (stringBody quote verbatim cs).length ∧
      (verbatim = true → (stringBody quote verbatim cs).length = 0 → cs = []) := by
  fun_induction stringBody quote verbatim cs with
  | case1 => exact ⟨Text.seamAt_zero _, fun _ _ => rfl⟩
  | case2 c cs h =>
    rw [beq_iff_eq] at h
    exact ⟨Text.seamAt_one fun e => absurd (h.symm.trans e) hq, fun _ hl => by cases hl⟩
  | case3 c cs _ hv ih =>
    refine ⟨.add_of (m := 1) (fun hstop => ?_) ih.1, fun _ hl => by simp [Body.prepend] at hl⟩
    have hnil : cs = [] := hstop.elim (ih.2 hv) id
    rw [hnil]
    exact Text.seamAt_one fun _ => by simp
  | case4 c cs _ hv h e ih =>
    rw [beq_iff_eq] at h
    refine ⟨?_, fun hv' => absurd hv' hv⟩
    subst h
    simp only [Body.prepend, Nat.add_assoc]
    exact ((escape_seamAt false cs).add ih.1).cons (by decide)
  | case5 c cs _ hv => exact ⟨Text.seamAt_zero _, fun hv' => absurd hv' hv⟩
  | case6 c cs _ hv _ h ih =>
    have hne : c ≠ '\r' := by
      rintro rfl
      exact absurd h (by decide)
    exact ⟨ih.1.cons hne, fun hv' => absurd hv' hv⟩

lemma templateBody_seamAt (cs : List Char) : SeamAt cs (templateBody cs).1.length := by
  fun_induction templateBody cs with
  | case1 => exact Text.seamAt_zero _
  | case2 c cs h =>
    rw [beq_iff_eq] at h
    subst h
    exact Text.seamAt_one fun e => by cases e
  | case3 c cs _ h =>
    simp only [Bool.and_eq_true, beq_iff_eq] at h
    obtain ⟨rfl, h⟩ := h
    obtain ⟨ds, rfl⟩ := List.head?_eq_some_iff.1 h
    exact fun hs => absurd hs.1 (by simp)
  | case4 c cs _ _ h e b more hbody ih =>
    rw [beq_iff_eq] at h
    subst h
    rw [hbody] at ih
    simp only [Body.prepend, Nat.add_assoc]
    exact ((escape_seamAt true cs).add ih).cons (by decide)
  | case5 c cs _ _ _ h n b more hbody ih =>
    rw [beq_iff_eq] at h
    subst h
    rw [hbody] at ih
    have hbreak : SeamAt ('\r' :: cs) (1 + n) := by
      dsimp only [n]
      split
      · next hn =>
        obtain ⟨ds, rfl⟩ := List.head?_eq_some_iff.1 (by simpa using hn)
        exact fun hs => absurd hs.1 (by simp)
      · next hn => exact Text.seamAt_one fun _ => by simpa using hn
    refine hbreak.add ?_
    rwa [Nat.add_comm 1 n, List.drop_succ_cons]
  | case6 c cs _ _ _ h b more hbody ih =>
    rw [hbody] at ih
    exact ih.cons (by simpa using h)

end Quoted

end EstreeLint
