import EstreeLint.Proofs.Token.Escapes
import Mathlib.Algebra.Group.Nat.Defs
import Mathlib.Data.List.Basic
import Mathlib.Data.List.Induction

/-!
Strings and template pieces are read as the language says.

Both directions are proved, first for one escape and from it for a whole body. An escape that the
language has is read with the value that it has there (`escape_decodes`), and one that is read
without a complaint is one of the language (`escape_escaped`). A half of a surrogate pair has no
character of its own, so the two halves of a pair are taken in one step (`halves_decode`).
-/

namespace EstreeLint

namespace Literal

variable {style : Style} {cs ds rest : List Char} {c d : Char} {e : Element}

def Style.isTemplate : Style → Bool
  | .string _ => false
  | .template => true

/-- A literal is closed, and none of its escapes is invalid. -/
structure Clean (f : TokenFlags) : Prop where
  closed : f.unterminated = false
  valid : f.containsInvalidEscape = false

lemma clean_union {f g : TokenFlags} : Clean (f ∪ g) ↔ Clean f ∧ Clean g := by
  have hclosed : (f ∪ g).unterminated = (f.unterminated || g.unterminated) := rfl
  have hvalid : (f ∪ g).containsInvalidEscape =
    (f.containsInvalidEscape || g.containsInvalidEscape) := rfl
  constructor
  · rintro ⟨hc, hv⟩
    rw [hclosed, Bool.or_eq_false_iff] at hc
    rw [hvalid, Bool.or_eq_false_iff] at hv
    exact ⟨⟨hc.1, hv.1⟩, ⟨hc.2, hv.2⟩⟩
  · rintro ⟨⟨hc, hv⟩, hc', hv'⟩
    exact ⟨by rw [hclosed, hc, hc']; rfl, by rw [hvalid, hv, hv']; rfl⟩

/-! ### Digits -/

/-- What is decided for each character of a list holds of every character in it. -/
lemma of_all (p : Char → Prop) [DecidablePred p] {l : List Char}
    (h : l.all (fun c => decide (p c)) = true) (hc : c ∈ l) : p c :=
  of_decide_eq_true (List.all_eq_true.1 h c hc)

lemma mem_of_toNat {l : List Char} (h : c.toNat ∈ l.map Char.toNat) : c ∈ l := by
  obtain ⟨d, hd, heq⟩ := List.mem_map.1 h
  rwa [← Char.toNat_inj.1 heq]

lemma isOctalDigit_iff : Number.isOctalDigit c = true ↔ c ∈ octalDigits := by
  constructor
  · intro h
    simp only [Number.isOctalDigit, Bool.and_eq_true, decide_eq_true_eq] at h
    have hlow : 48 ≤ c.toNat := h.1
    have hhigh : c.toNat ≤ 55 := h.2
    refine mem_of_toNat ?_
    rw [show octalDigits.map Char.toNat = [48, 49, 50, 51, 52, 53, 54, 55] by decide]
    simp only [List.mem_cons, List.not_mem_nil, or_false]
    omega
  · exact fun h => of_all (fun c => Number.isOctalDigit c = true) (by decide) h

lemma isDigit_iff : c.isDigit = true ↔ c ∈ decimalDigits := by
  constructor
  · intro h
    simp only [Char.isDigit, Bool.and_eq_true, decide_eq_true_eq] at h
    have hlow : 48 ≤ c.toNat := h.1
    have hhigh : c.toNat ≤ 57 := h.2
    refine mem_of_toNat ?_
    rw [show decimalDigits.map Char.toNat = [48, 49, 50, 51, 52, 53, 54, 55, 56, 57] by decide]
    simp only [List.mem_cons, List.not_mem_nil, or_false]
    omega
  · exact fun h => of_all (fun c => c.isDigit = true) (by decide) h

lemma hexDigit?_of_mem : c ∈ hexDigits → Word.hexDigit? c = some (digit c) := fun h =>
  of_all (fun c => Word.hexDigit? c = some (digit c)) (by decide) h

lemma isHexDigit_iff : Word.isHexDigit c = true ↔ c ∈ hexDigits := by
  constructor
  · intro h
    have hranges : c.isDigit = true ∨ ('a' ≤ c ∧ c ≤ 'f') ∨ ('A' ≤ c ∧ c ≤ 'F') := by
      by_contra hnone
      simp only [not_or] at hnone
      simp [Word.isHexDigit, Word.hexDigit?, hnone] at h
    refine mem_of_toNat ?_
    rw [show hexDigits.map Char.toNat = [48, 49, 50, 51, 52, 53, 54, 55, 56, 57,
      97, 98, 99, 100, 101, 102, 65, 66, 67, 68, 69, 70] by decide]
    simp only [List.mem_cons, List.not_mem_nil, or_false]
    rcases hranges with h | ⟨h₁, h₂⟩ | ⟨h₁, h₂⟩
    · simp only [Char.isDigit, Bool.and_eq_true, decide_eq_true_eq] at h
      have hlow : 48 ≤ c.toNat := h.1
      have hhigh : c.toNat ≤ 57 := h.2
      omega
    · have hlow : 97 ≤ c.toNat := h₁
      have hhigh : c.toNat ≤ 102 := h₂
      omega
    · have hlow : 65 ≤ c.toNat := h₁
      have hhigh : c.toNat ≤ 70 := h₂
      omega
  · intro h
    rw [Word.isHexDigit, hexDigit?_of_mem h]
    rfl

lemma hexNumber_eq (h : ∀ d ∈ ds, d ∈ hexDigits) : Word.hexNumber ds = number 16 ds := by
  refine List.foldl_ext _ _ 0 fun n d hd => ?_
  rw [hexDigit?_of_mem (h d hd), Option.getD_some]

lemma hexDigits?_append (h : ∀ d ∈ ds, d ∈ hexDigits) (cs : List Char) :
    Word.hexDigits? ds.length (ds ++ cs) = some (number 16 ds) := by
  have hall : ds.all Word.isHexDigit = true := List.all_eq_true.2 fun d hd =>
    isHexDigit_iff.2 (h d hd)
  simp only [Word.hexDigits?, List.take_left, hall, and_self, if_true, hexNumber_eq h]

lemma of_hexDigits? {n k : Nat} (h : Word.hexDigits? n cs = some k) :
    (cs.take n).length = n ∧ (∀ d ∈ cs.take n, d ∈ hexDigits) ∧ k = number 16 (cs.take n) := by
  simp only [Word.hexDigits?, Option.ite_none_right_eq_some, Option.some.injEq] at h
  obtain ⟨⟨hlength, hall⟩, rfl⟩ := h
  have hmem : ∀ d ∈ cs.take n, d ∈ hexDigits := fun d hd =>
    isHexDigit_iff.1 (List.all_eq_true.1 hall d hd)
  exact ⟨hlength, hmem, hexNumber_eq hmem⟩

lemma number_lt {base : Nat} (h : ∀ d ∈ ds, digit d < base) :
    number base ds < base ^ ds.length := by
  induction ds using List.reverseRecOn with
  | nil => simp [number]
  | append_singleton ds d ih =>
    have hd := h d (by simp)
    have hds := ih fun e he => h e (by simp [he])
    rw [number, List.foldl_append, List.length_append, List.length_singleton, Nat.pow_succ]
    change base * number base ds + digit d < base ^ ds.length * base
    calc base * number base ds + digit d < base * number base ds + base := by omega
      _ = base * (number base ds + 1) := by rw [Nat.mul_add, Nat.mul_one]
      _ ≤ base * base ^ ds.length := Nat.mul_le_mul_left _ hds
      _ = base ^ ds.length * base := Nat.mul_comm ..

lemma decimal_of_octal : c ∈ octalDigits → c ∈ decimalDigits := fun h =>
  of_all (fun c => c ∈ decimalDigits) (by decide) h

lemma digit_lt_of_hex : c ∈ hexDigits → digit c < 16 := fun h =>
  of_all (fun c => digit c < 16) (by decide) h

/-! ### Characters by their codes -/

lemma scalar?_of_valid {n : Nat} (h : n < 0xD800 ∨ 0xDFFF < n) (hle : n ≤ 0x10FFFF) :
    ∃ d : Char, Word.scalar? n = some d ∧ d.toNat = n := by
  have hvalid : n.isValidChar := by
    unfold Nat.isValidChar
    omega
  have hof : Char.ofNat n = Char.ofNatAux n hvalid := dif_pos hvalid
  exact ⟨Char.ofNat n, if_pos hvalid, by rw [hof]; rfl⟩

lemma of_scalar? {n : Nat} {d : Char} (h : Word.scalar? n = some d) : n ≤ 0x10FFFF := by
  simp only [Word.scalar?, Option.ite_none_right_eq_some] at h
  have hvalid : n < 0xD800 ∨ 0xDFFF < n ∧ n < 0x110000 := h.1
  omega

/-- Two halves of a pair are the units of one character. -/
lemma encode_of_halves {high low : Nat} (hhigh : 0xD800 ≤ high ∧ high < 0xDC00)
    (hlow : 0xDC00 ≤ low ∧ low < 0xE000) :
    encode (0x10000 + (high - 0xD800) * 0x400 + (low - 0xDC00)) = [high, low] := by
  rw [encode, if_neg (by omega)]
  simp only [List.cons.injEq, and_true]
  omega

/-! ### One escape -/

/-- A character that closes a literal is none by which elements are told apart. -/
structure Closes (d : Char) : Prop where
  decimal : d ∉ decimalDigits
  feed : d ≠ '\n'
  brace : d ≠ '\x7b'

/-- Before the end of a literal an element stands as before nothing. -/
lemma Element.fits_append (hd : Closes d) :
    e.Fits style (cs ++ d :: rest).head? ↔ e.Fits style cs.head? := by
  cases cs with
  | cons => rfl
  | nil =>
    rw [List.nil_append, List.head?_cons, List.head?_nil]
    have hdecimal (x : Char) (hx : x ∈ decimalDigits) : some d ≠ some x := by
      rintro ⟨⟩
      exact hd.decimal hx
    have hoctal (x : Char) (hx : x ∈ octalDigits) := hdecimal x (decimal_of_octal hx)
    have hlegacy (ds : List Char) : LegacyOctal ds (some d) ↔ LegacyOctal ds none := by
      constructor
      · intro h
        cases h with
        | zero h =>
          refine absurd rfl (hdecimal d ?_)
          rcases List.mem_pair.1 h with rfl | rfl <;> decide
        | one ha h => exact .one ha (by simp)
        | low ha hb h => exact .low ha hb (by simp)
        | high ha hb => exact .high ha hb
        | three ha hb hc => exact .three ha hb hc
      · intro h
        cases h with
        | one ha h => exact .one ha hoctal
        | low ha hb h => exact .low ha hb hoctal
        | high ha hb => exact .high ha hb
        | three ha hb hc => exact .three ha hb hc
    cases e with
    | plain c => cases style <;> simp [Fits, hd.brace]
    | carriageReturn feed => simp [Fits, hd.feed]
    | null => exact ⟨fun _ _ _ => by simp, fun _ => hdecimal⟩
    | octal ds => simp [Fits, hlegacy]
    | continuation lineBreak => simp [Fits, hd.feed]
    | escaped | hex | unit | point => rfl

/-- What is read behind a backslash: how many characters, and their value. -/
structure Decodes (e : Quoted.Escape) (length : Nat) (units : List Nat) : Prop where
  length_eq : e.length = length
  clean : Clean e.flags
  value_eq : encodeText e.value = units

lemma digit_lt_of_octal : c ∈ octalDigits → digit c < 8 := fun h =>
  of_all (fun c => digit c < 8) (by decide) h

lemma digit_of_octal : c ∈ octalDigits → digit c = c.toNat - '0'.toNat := fun h =>
  of_all (fun c => digit c = c.toNat - '0'.toNat) (by decide) h

lemma octal_of_low : c ∈ ['0', '1', '2', '3'] → c ∈ octalDigits ∧ c ≤ '3' ∧ digit c < 4 := fun h =>
  of_all (fun c => c ∈ octalDigits ∧ c ≤ '3' ∧ digit c < 4) (by decide) h

lemma octal_of_high : c ∈ ['4', '5', '6', '7'] → c ∈ octalDigits ∧ ¬ c ≤ '3' := fun h =>
  of_all (fun c => c ∈ octalDigits ∧ ¬ c ≤ '3') (by decide) h

lemma octal_of_positive : c ∈ ['1', '2', '3', '4', '5', '6', '7'] → c ∈ octalDigits := fun h =>
  of_all (fun c => c ∈ octalDigits) (by decide) h

lemma takeWhile_octal_stop {n : Nat} (h : ∀ d ∈ octalDigits, cs.head? ≠ some d) :
    (cs.take n).takeWhile Number.isOctalDigit = [] := by
  cases cs with
  | nil => simp
  | cons x cs =>
    cases n with
    | zero => rfl
    | succ n =>
      have hx : Number.isOctalDigit x = false := Bool.eq_false_iff.2 fun hx =>
        h x (isOctalDigit_iff.1 hx) rfl
      simp [hx]

/-- A run of octal digits that may not go on is read whole. -/
lemma octalEscape_eq {ds : List Char} (hfits : LegacyOctal (c :: ds) cs.head?) :
    c ∈ octalDigits ∧
      ((ds ++ cs).take (if c ≤ '3' then 2 else 1)).takeWhile Number.isOctalDigit = ds ∧
      (∀ d ∈ ds, d ∈ octalDigits) ∧ number 8 (c :: ds) < 256 := by
  generalize hnext : cs.head? = next at hfits
  cases hfits with
  | zero hd =>
    obtain ⟨rest, rfl⟩ := List.head?_eq_some_iff.1 hnext
    refine ⟨List.mem_cons_self, takeWhile_octal_stop ?_, by simp, by decide⟩
    rcases List.mem_pair.1 hd with rfl | rfl <;> simp [octalDigits]
  | one ha h =>
    have hdigit := digit_lt_of_octal (octal_of_positive ha)
    refine ⟨octal_of_positive ha, takeWhile_octal_stop (by simpa [hnext] using h), by simp, ?_⟩
    simp only [number, List.foldl_cons, List.foldl_nil]
    omega
  | @low a b _ ha hb h =>
    obtain ⟨hoctal, hle, hdigit⟩ := octal_of_low ha
    have hsecond := digit_lt_of_octal hb
    refine ⟨hoctal, ?_, by simpa using hb, ?_⟩
    · have htail := takeWhile_octal_stop (n := 1) (hnext ▸ h)
      simp [hle, isOctalDigit_iff.2 hb, htail]
    · simp only [number, List.foldl_cons, List.foldl_nil]
      omega
  | @high a b _ ha hb =>
    obtain ⟨hoctal, hle⟩ := octal_of_high ha
    have hfirst := digit_lt_of_octal hoctal
    have hsecond := digit_lt_of_octal hb
    refine ⟨hoctal, by simp [hle, isOctalDigit_iff.2 hb], by simpa using hb, ?_⟩
    simp only [number, List.foldl_cons, List.foldl_nil]
    omega
  | @three a b d _ ha hb hd =>
    obtain ⟨hoctal, hle, hdigit⟩ := octal_of_low ha
    have hsecond := digit_lt_of_octal hb
    have hthird := digit_lt_of_octal hd
    refine ⟨hoctal, ?_, by simpa using ⟨hb, hd⟩, ?_⟩
    · simp [hle, isOctalDigit_iff.2 hb, isOctalDigit_iff.2 hd]
    · simp only [number, List.foldl_cons, List.foldl_nil]
      omega

lemma octalEscape_decodes {ds : List Char} (hfits : LegacyOctal (c :: ds) cs.head?) :
    Decodes (Quoted.octalEscape c (ds ++ cs)) (1 + ds.length) [number 8 (c :: ds)] := by
  obtain ⟨hc, hdigits, hds, hlt⟩ := octalEscape_eq hfits
  have hall : ∀ d ∈ c :: ds, d ∈ octalDigits := List.forall_mem_cons.2 ⟨hc, hds⟩
  have hcode : (c :: ds).foldl (fun n d => 8 * n + (d.toNat - '0'.toNat)) 0 =
      number 8 (c :: ds) := by
    refine List.foldl_ext _ _ 0 fun n d hd => ?_
    rw [← digit_of_octal (hall d hd)]
  obtain ⟨d, hscalar, hd⟩ := scalar?_of_valid (n := number 8 (c :: ds)) (by omega) (by omega)
  refine ⟨?_, ⟨rfl, rfl⟩, ?_⟩
  · simp only [Quoted.octalEscape, hdigits, List.length_cons, Nat.add_comm]
  · simp only [Quoted.octalEscape, hdigits, hcode, hscalar, Option.getD_some, encodeText_cons,
      encodeText_nil, List.append_nil, hd]
    exact encode_of_lt (by omega)

lemma hexEscape_decodes {ds : List Char} (hlength : ds.length = 2)
    (hds : ∀ d ∈ ds, d ∈ hexDigits) :
    Decodes (Quoted.hexEscape (ds ++ cs)) (1 + ds.length) [number 16 ds] := by
  have hread := hexDigits?_append hds cs
  have hlt := number_lt fun d hd => digit_lt_of_hex (hds d hd)
  rw [hlength] at hread hlt ⊢
  obtain ⟨d, hscalar, hd⟩ := scalar?_of_valid (n := number 16 ds) (by omega) (by omega)
  simp only [Quoted.hexEscape, hread, Option.bind_some, hscalar]
  refine ⟨rfl, ⟨rfl, rfl⟩, ?_⟩
  simp only [encodeText_cons, encodeText_nil, List.append_nil, hd]
  exact encode_of_lt (by omega)

lemma brace_not_hex : '\x7b' ∉ hexDigits ∧ '\x7d' ∉ hexDigits := by decide

/-- Without braces a `\u` is read by its digits. -/
lemma unicodeEscape_of_digits {ds : List Char} (hne : ds ≠ []) (hds : ∀ d ∈ ds, d ∈ hexDigits) :
    Word.unicodeEscape (ds ++ cs) =
      match Word.hexDigits? 4 (ds ++ cs) with
      | none => ⟨none, 0, false⟩
      | some code =>
        match if Word.isHighSurrogate code then Word.lowSurrogate? ((ds ++ cs).drop 4)
          else none with
        | some low =>
          ⟨Word.scalar? (0x10000 + (code - 0xD800) * 0x400 + (low - 0xDC00)), 10, false⟩
        | none => ⟨some ((Word.scalar? code).getD '\uFFFD'), 4, false⟩ := by
  obtain ⟨d, ds, rfl⟩ := List.exists_cons_of_ne_nil hne
  rw [Word.unicodeEscape.eq_def]
  split
  · next h =>
    obtain ⟨rfl, -⟩ := List.cons.inj h
    exact absurd (hds _ (by simp)) brace_not_hex.1
  · rfl

lemma unit_decodes {ds : List Char} (hlength : ds.length = 4) (hds : ∀ d ∈ ds, d ∈ hexDigits)
    (hcode : number 16 ds < 0xD800 ∨ 0xDFFF < number 16 ds) :
    Decodes (Quoted.unicodeEscape (ds ++ cs)) (1 + ds.length) [number 16 ds] := by
  have hread := hexDigits?_append hds cs
  have hlt := number_lt fun d hd => digit_lt_of_hex (hds d hd)
  rw [hlength] at hread hlt
  have hhigh : Word.isHighSurrogate (number 16 ds) = false := by
    simp only [Word.isHighSurrogate, Bool.and_eq_false_iff, decide_eq_false_iff_not]
    omega
  obtain ⟨d, hscalar, hd⟩ := scalar?_of_valid hcode (by omega)
  have hescape : Word.unicodeEscape (ds ++ cs) = ⟨some d, 4, false⟩ := by
    rw [unicodeEscape_of_digits (by rintro rfl; cases hlength) hds, hread]
    simp [hhigh, hscalar]
  simp only [Quoted.unicodeEscape, hescape]
  refine ⟨by rw [hlength], ⟨rfl, rfl⟩, ?_⟩
  simp only [encodeText_cons, encodeText_nil, List.append_nil, hd]
  exact encode_of_lt (by omega)

/-- Two escapes for the halves of a pair are read as one. -/
lemma pair_decodes {high low : List Char} (hhigh : high.length = 4) (hlow : low.length = 4)
    (hhighs : ∀ d ∈ high, d ∈ hexDigits) (hlows : ∀ d ∈ low, d ∈ hexDigits)
    (hfirst : 0xD800 ≤ number 16 high ∧ number 16 high < 0xDC00)
    (hsecond : 0xDC00 ≤ number 16 low ∧ number 16 low < 0xE000) :
    Decodes (Quoted.unicodeEscape (high ++ ('\\' :: 'u' :: (low ++ cs)))) 11
      [number 16 high, number 16 low] := by
  have hread := hexDigits?_append hhighs ('\\' :: 'u' :: (low ++ cs))
  have hreadlow := hexDigits?_append hlows cs
  rw [hhigh] at hread
  rw [hlow] at hreadlow
  have hishigh : Word.isHighSurrogate (number 16 high) = true := by
    simp only [Word.isHighSurrogate, Bool.and_eq_true, decide_eq_true_eq]
    exact hfirst
  have hislow : Word.isLowSurrogate (number 16 low) = true := by
    simp only [Word.isLowSurrogate, Bool.and_eq_true, decide_eq_true_eq]
    exact hsecond
  have hhalf : Word.lowSurrogate? ('\\' :: 'u' :: (low ++ cs)) = some (number 16 low) := by
    simp [Word.lowSurrogate?, hreadlow, hislow]
  have hdrop : (high ++ ('\\' :: 'u' :: (low ++ cs))).drop 4 = '\\' :: 'u' :: (low ++ cs) :=
    List.drop_left' hhigh
  obtain ⟨d, hscalar, hd⟩ := scalar?_of_valid
    (n := 0x10000 + (number 16 high - 0xD800) * 0x400 + (number 16 low - 0xDC00))
    (by omega) (by omega)
  have hescape : Word.unicodeEscape (high ++ ('\\' :: 'u' :: (low ++ cs))) =
      ⟨some d, 10, false⟩ := by
    rw [unicodeEscape_of_digits (by rintro rfl; cases hhigh) hhighs, hread, hdrop]
    simp only [hishigh, if_true, hhalf, hscalar]
  simp only [Quoted.unicodeEscape, hescape]
  refine ⟨rfl, ⟨rfl, rfl⟩, ?_⟩
  simp only [encodeText_cons, encodeText_nil, List.append_nil, hd]
  exact encode_of_halves hfirst hsecond

/-- The digits in braces end at the brace. -/
lemma takeWhile_hex {ds : List Char} (hds : ∀ d ∈ ds, d ∈ hexDigits) :
    (ds ++ '\x7d' :: cs).takeWhile Word.isHexDigit = ds := by
  have hbrace : Word.isHexDigit '\x7d' = false :=
    Bool.eq_false_iff.2 fun h => brace_not_hex.2 (isHexDigit_iff.1 h)
  rw [List.takeWhile_append_of_pos fun d hd => isHexDigit_iff.2 (hds d hd),
    List.takeWhile_cons_of_neg (by simp [hbrace]), List.append_nil]

lemma point_decodes {ds : List Char} (hne : ds ≠ []) (hds : ∀ d ∈ ds, d ∈ hexDigits)
    (hle : number 16 ds ≤ 0x10FFFF) (hcode : number 16 ds < 0xD800 ∨ 0xDFFF < number 16 ds) :
    Decodes (Quoted.unicodeEscape ('\x7b' :: (ds ++ ['\x7d'] ++ cs))) (3 + ds.length)
      (encode (number 16 ds)) := by
  obtain ⟨d, hscalar, hd⟩ := scalar?_of_valid hcode hle
  have hescape : Word.unicodeEscape ('\x7b' :: (ds ++ ['\x7d'] ++ cs)) =
      ⟨some d, ds.length + 2, true⟩ := by
    have hsize : ¬ UInt32.size ≤ number 16 ds := by
      have : UInt32.size = 4294967296 := rfl
      omega
    simp only [Word.unicodeEscape, Word.bracedEscape, List.append_assoc, List.singleton_append,
      takeWhile_hex hds, List.drop_left, List.head?_cons, hexNumber_eq hds, hsize, hscalar]
    simp [hne]
  simp only [Quoted.unicodeEscape, hescape]
  refine ⟨by simp only; omega, ⟨rfl, rfl⟩, ?_⟩
  simp only [encodeText_cons, encodeText_nil, List.append_nil, hd]

lemma letterEscape?_getD : (Quoted.letterEscape? c).getD c = escapedValue c := by
  unfold Quoted.letterEscape? escapedValue
  split <;> simp_all

lemma isLineBreak_iff : Text.isLineBreak c = true ↔ [c] ∈ lineBreaks := by
  simp [Text.isLineBreak, lineBreaks, or_assoc]

lemma LegacyOctal.exists_cons {next : Option Char} (h : LegacyOctal ds next) :
    ∃ c cs, ds = c :: cs := by
  cases h <;> exact ⟨_, _, rfl⟩

/-- An octal escape is not taken for that of the null character. -/
lemma LegacyOctal.ne_null {ds : List Char} (h : LegacyOctal (c :: ds) cs.head?) :
    (c == '0' && !(ds ++ cs).head?.any Char.isDigit) = false := by
  have hdigit {d : Char} (hd : d ∈ octalDigits) : d.isDigit = true :=
    isDigit_iff.2 (decimal_of_octal hd)
  generalize hnext : cs.head? = next at h
  cases h with
  | zero hd =>
    rcases List.mem_pair.1 hd with rfl | rfl <;> simp [hnext]
  | one ha h =>
    have hne : c ≠ '0' := by
      rintro rfl
      exact absurd ha (by decide)
    simp [hne]
  | low ha hb h => simp [hdigit hb]
  | high ha hb => simp [hdigit hb]
  | three ha hb hc => simp [hdigit hb]

/-- **An escape that fits is read as the language says**, unless it writes half of a pair. -/
theorem escape_decodes {tail : List Char} (hsource : e.source = '\\' :: tail)
    (hfits : e.Fits style cs.head?) (hcode : ∀ n, e.code? = some n → n < 0xD800 ∨ 0xDFFF < n) :
    Decodes (Quoted.escape style.isTemplate (tail ++ cs)) tail.length e.units := by
  cases e with
  | plain c =>
    obtain ⟨rfl, -⟩ := List.cons.inj hsource
    cases style with
    | string quote => exact absurd rfl hfits.2.1
    | template => exact absurd rfl hfits.2.1
  | carriageReturn feed => cases feed <;> cases hsource
  | escaped c =>
    obtain ⟨-, rfl⟩ := List.cons.inj hsource
    obtain ⟨hu, hx, hbreak, hdecimal⟩ := hfits
    have hzero : c ≠ '0' := by
      rintro rfl
      exact absurd (hdecimal (by decide)).2 (by decide)
    have hoctal : Number.isOctalDigit c = false := Bool.eq_false_iff.2 fun h => by
      have hmem := isOctalDigit_iff.1 h
      rcases List.mem_pair.1 (hdecimal (decimal_of_octal hmem)).2 with rfl | rfl
      · exact absurd hmem (by decide)
      · exact absurd hmem (by decide)
    have hdigit : (c.isDigit && style.isTemplate) = false := by
      cases hc : c.isDigit with
      | false => rfl
      | true =>
        cases style with
        | string quote => rfl
        | template => exact absurd rfl (hdecimal (isDigit_iff.1 hc)).1
    have hreturn : c ≠ '\r' := by
      rintro rfl
      exact hbreak (by decide)
    have hline : Text.isLineBreak c = false :=
      Bool.eq_false_iff.2 fun h => hbreak (isLineBreak_iff.1 h)
    have hescape : Quoted.escape style.isTemplate ([c] ++ cs) = ⟨[escapedValue c], 1, {}⟩ := by
      simp [Quoted.escape, hzero, hoctal, hdigit, hu, hx, hreturn, hline, letterEscape?_getD]
    rw [hescape]
    exact ⟨rfl, ⟨rfl, rfl⟩, by simp [Element.units]⟩
  | null =>
    obtain ⟨-, rfl⟩ := List.cons.inj hsource
    have hnext : cs.head?.any Char.isDigit = false := by
      cases hhead : cs.head? with
      | none => rfl
      | some d => exact Bool.eq_false_iff.2 fun h => hfits d (isDigit_iff.1 h) hhead
    have hescape : Quoted.escape style.isTemplate (['0'] ++ cs) = ⟨['\x00'], 1, {}⟩ := by
      simp [Quoted.escape, hnext]
    rw [hescape]
    exact ⟨rfl, ⟨rfl, rfl⟩, rfl⟩
  | octal ds =>
    obtain ⟨-, rfl⟩ := List.cons.inj hsource
    obtain ⟨hstyle, hlegacy⟩ := hfits
    obtain ⟨c, ds, rfl⟩ := hlegacy.exists_cons
    have htemplate : style.isTemplate = false := by
      cases style with
      | string quote => rfl
      | template => exact absurd rfl hstyle
    have hescape : Quoted.escape style.isTemplate (c :: (ds ++ cs)) =
        Quoted.octalEscape c (ds ++ cs) := by
      have hoctal := isOctalDigit_iff.2 (octalEscape_eq hlegacy).1
      simp only [Quoted.escape, hlegacy.ne_null, hoctal, htemplate]
      simp
    rw [List.cons_append, hescape, List.length_cons, Nat.add_comm]
    exact octalEscape_decodes hlegacy
  | hex ds =>
    obtain ⟨-, rfl⟩ := List.cons.inj hsource
    have hescape : Quoted.escape style.isTemplate ('x' :: ds ++ cs) =
        Quoted.hexEscape (ds ++ cs) := by
      simp [Quoted.escape, Number.isOctalDigit]
    rw [hescape, List.length_cons, Nat.add_comm]
    exact hexEscape_decodes hfits.1 hfits.2
  | unit ds =>
    obtain ⟨-, rfl⟩ := List.cons.inj hsource
    have hescape : Quoted.escape style.isTemplate ('u' :: ds ++ cs) =
        Quoted.unicodeEscape (ds ++ cs) := by
      simp [Quoted.escape, Number.isOctalDigit]
    rw [hescape, List.length_cons, Nat.add_comm]
    exact unit_decodes hfits.1 hfits.2 (hcode _ rfl)
  | point ds =>
    obtain ⟨-, rfl⟩ := List.cons.inj hsource
    have hescape : Quoted.escape style.isTemplate ('u' :: '\x7b' :: (ds ++ ['\x7d']) ++ cs) =
        Quoted.unicodeEscape ('\x7b' :: (ds ++ ['\x7d'] ++ cs)) := by
      simp [Quoted.escape, Number.isOctalDigit]
    have hlength : ('u' :: '\x7b' :: (ds ++ ['\x7d'])).length = 3 + ds.length := by
      simp
      omega
    rw [hescape, hlength]
    exact point_decodes hfits.1 hfits.2.1 hfits.2.2 (hcode _ rfl)
  | continuation lineBreak =>
    obtain ⟨-, rfl⟩ := List.cons.inj hsource
    obtain ⟨hmem, hnext⟩ := hfits
    have hescape : Quoted.escape style.isTemplate (lineBreak ++ cs) =
        ⟨[], lineBreak.length, {}⟩ := by
      simp only [lineBreaks, List.mem_cons, List.not_mem_nil, or_false] at hmem
      rcases hmem with rfl | rfl | rfl | rfl | rfl
      · simp [Quoted.escape, Number.isOctalDigit, Text.isLineBreak]
      · simp [Quoted.escape, Number.isOctalDigit, hnext]
      · simp [Quoted.escape, Number.isOctalDigit, Text.isLineBreak]
      · simp [Quoted.escape, Number.isOctalDigit, Text.isLineBreak]
      · simp [Quoted.escape, Number.isOctalDigit]
    rw [hescape]
    exact ⟨rfl, ⟨rfl, rfl⟩, rfl⟩

/-! ### Every escape that is read is one of the language -/

/-- What stands behind a backslash, up to where the escape ends, is the rest of an element, or of
two that write the halves of a pair. -/
inductive Escaped (style : Style) (cs : List Char) (n : Nat) : Prop
  | one {e : Element} (source : e.source = '\\' :: cs.take n)
      (fits : e.Fits style (cs.drop n).head?)
  | two {high low : List Char} (source : cs.take n = 'u' :: (high ++ '\\' :: 'u' :: low))
      (high_fits : (Element.unit high).Fits style none)
      (low_fits : (Element.unit low).Fits style none)

lemma low_of_octal : c ∈ octalDigits → c ≤ '3' → c ∈ ['0', '1', '2', '3'] := fun h =>
  of_all (fun c => c ≤ '3' → c ∈ ['0', '1', '2', '3']) (by decide) h

lemma high_of_octal : c ∈ octalDigits → ¬ c ≤ '3' → c ∈ ['4', '5', '6', '7'] := fun h =>
  of_all (fun c => ¬ c ≤ '3' → c ∈ ['4', '5', '6', '7']) (by decide) h

lemma positive_of_octal : c ∈ octalDigits → c ≠ '0' →
    c ∈ ['1', '2', '3', '4', '5', '6', '7'] := fun h =>
  of_all (fun c => c ≠ '0' → c ∈ ['1', '2', '3', '4', '5', '6', '7']) (by decide) h

/-- The octal digits that are read are an escape of the language. -/
lemma octalEscape_legacy (hc : c ∈ octalDigits)
    (hnull : c = '0' → ∃ d ∈ decimalDigits, cs.head? = some d) :
    ∃ ds rest, cs = ds ++ rest ∧ (Quoted.octalEscape c cs).length = 1 + ds.length ∧
      LegacyOctal (c :: ds) rest.head? := by
  have hlength : (Quoted.octalEscape c cs).length =
      1 + ((cs.take (if c ≤ '3' then 2 else 1)).takeWhile Number.isOctalDigit).length := by
    simp only [Quoted.octalEscape, List.length_cons, Nat.add_comm]
  have hnot {d : Char} (h : ¬ Number.isOctalDigit d = true) (x : Char) (hx : x ∈ octalDigits) :
      some d ≠ some x := by
    rintro ⟨⟩
    exact h (isOctalDigit_iff.2 hx)
  rw [hlength]
  cases cs with
  | nil =>
    have hne : c ≠ '0' := fun h => by
      obtain ⟨d, -, hd⟩ := hnull h
      cases hd
    exact ⟨[], [], rfl, by simp, .one (positive_of_octal hc hne) (by simp)⟩
  | cons x xs =>
    by_cases hx : Number.isOctalDigit x = true
    · have hmem := isOctalDigit_iff.1 hx
      by_cases hle : c ≤ '3'
      · have hlow := low_of_octal hc hle
        cases xs with
        | nil => exact ⟨[x], [], rfl, by simp [hle, hx], .low hlow hmem (by simp)⟩
        | cons y ys =>
          by_cases hy : Number.isOctalDigit y = true
          · refine ⟨[x, y], ys, rfl, by simp [hle, hx, hy], .three hlow hmem ?_⟩
            exact isOctalDigit_iff.1 hy
          · exact ⟨[x], y :: ys, rfl, by simp [hle, hx, hy], .low hlow hmem (hnot hy)⟩
      · exact ⟨[x], xs, rfl, by simp [hle, hx], .high (high_of_octal hc hle) hmem⟩
    · have hread : ((x :: xs).take (if c ≤ '3' then 2 else 1)).takeWhile Number.isOctalDigit =
          [] := by
        split <;> simp [hx]
      refine ⟨[], x :: xs, rfl, by rw [hread], ?_⟩
      by_cases hzero : c = '0'
      · obtain ⟨d, hd, hhead⟩ := hnull hzero
        obtain rfl : x = d := Option.some.inj hhead
        rcases List.mem_append.1 hd with hd | hd
        · exact absurd (isOctalDigit_iff.2 hd) hx
        · exact hzero ▸ .zero hd
      · exact .one (positive_of_octal hc hzero) (hnot hx)

/-- An escape in braces that has a value. -/
lemma of_bracedEscape (style : Style) (h : (Word.bracedEscape cs).value = some d) :
    ∃ ds rest, cs = ds ++ '\x7d' :: rest ∧ (Word.bracedEscape cs).length = ds.length + 2 ∧
      (Element.point ds).Fits style rest.head? := by
  obtain ⟨ds, tail, hds, htail⟩ : ∃ ds tail, cs.takeWhile Word.isHexDigit = ds ∧ cs = ds ++ tail :=
    ⟨_, _, rfl, List.takeWhile_append_dropWhile.symm⟩
  unfold Word.bracedEscape at h ⊢
  simp only [hds] at h ⊢
  split at h
  · cases h
  next hcond =>
  rw [if_neg hcond]
  simp only [Bool.or_eq_true, not_or, Bool.not_eq_true, List.isEmpty_eq_false_iff,
    bne_eq_false_iff_eq] at hcond
  obtain ⟨⟨hne, hhead⟩, -⟩ := hcond
  rw [htail, List.drop_left] at hhead
  obtain ⟨rest, rfl⟩ := List.head?_eq_some_iff.1 hhead
  have hmem : ∀ d ∈ ds, d ∈ hexDigits := fun d hd =>
    isHexDigit_iff.1 (List.all_eq_true.1 List.all_takeWhile d (hds ▸ hd))
  exact ⟨ds, rest, htail, rfl, hne, hmem, hexNumber_eq hmem ▸ of_scalar? h⟩

/-- The second half of a pair. -/
lemma of_lowSurrogate? (style : Style) {low : Nat} (h : Word.lowSurrogate? cs = some low) :
    ∃ ds rest, cs = '\\' :: 'u' :: (ds ++ rest) ∧ (Element.unit ds).Fits style none := by
  unfold Word.lowSurrogate? at h
  split at h
  · next cs =>
    obtain ⟨hlow, -⟩ := Option.filter_eq_some_iff.1 h
    obtain ⟨hlength, hmem, -⟩ := of_hexDigits? hlow
    exact ⟨cs.take 4, cs.drop 4, by rw [List.take_append_drop], hlength, hmem⟩
  · cases h

/-- What is read behind a `\u` that has a value is an escape of the language, or two for the
halves of a pair. -/
lemma unicodeEscape_escaped (h : Clean (Quoted.unicodeEscape cs).flags) :
    Escaped style ('u' :: cs) (Quoted.unicodeEscape cs).length := by
  obtain ⟨d, hvalue⟩ : ∃ d, (Word.unicodeEscape cs).value = some d := by
    cases hvalue : (Word.unicodeEscape cs).value with
    | some d => exact ⟨d, rfl⟩
    | none =>
      simp only [Quoted.unicodeEscape, hvalue] at h
      cases h.valid
  simp only [Quoted.unicodeEscape, hvalue]
  rw [Word.unicodeEscape.eq_def] at hvalue ⊢
  split at hvalue
  · next cs =>
    obtain ⟨ds, rest, rfl, hlength, hfits⟩ := of_bracedEscape style hvalue
    have htake : ('u' :: '\x7b' :: (ds ++ '\x7d' :: rest)).take (1 + (ds.length + 2)) =
        'u' :: '\x7b' :: (ds ++ ['\x7d']) := by
      rw [Nat.add_comm 1, List.take_succ_cons, List.take_succ_cons, List.take_length_add_append]
      rfl
    rw [hlength]
    exact .one (e := .point ds) (congrArg _ htake.symm) hfits
  · split at hvalue
    · cases hvalue
    next code hcode =>
    obtain ⟨hlength, hmem, hnumber⟩ := of_hexDigits? hcode
    split at hvalue
    · next low hlow =>
      have hpair : Word.lowSurrogate? (cs.drop 4) = some low := by
        split at hlow
        · exact hlow
        · cases hlow
      obtain ⟨ds, rest, hdrop, hfits⟩ := of_lowSurrogate? style hpair
      have hcs : cs = cs.take 4 ++ '\\' :: 'u' :: (ds ++ rest) := by
        rw [← hdrop, List.take_append_drop]
      have hhigh : (Element.unit (cs.take 4)).Fits style none := ⟨hlength, hmem⟩
      refine .two ?_ hhigh hfits
      have hds : ds.length = 4 := hfits.1
      generalize cs.take 4 = high at hcs hlength
      have htake : ('u' :: (high ++ '\\' :: 'u' :: ds) ++ rest).take 11 =
          'u' :: (high ++ '\\' :: 'u' :: ds) := List.take_left' (by simp [hlength, hds])
      simpa [hcs] using htake
    · exact .one (e := .unit (cs.take 4)) rfl ⟨hlength, hmem⟩

/-- **Every escape that is read without a complaint is one of the language.** -/
theorem escape_escaped (cs : List Char) (h : Clean (Quoted.escape style.isTemplate cs).flags) :
    Escaped style cs (Quoted.escape style.isTemplate cs).length := by
  unfold Quoted.escape at h ⊢
  split at h
  · cases h.closed
  next c cs =>
  split at h
  · next hnull =>
    rw [if_pos hnull]
    simp only [Bool.and_eq_true, beq_iff_eq, Bool.not_eq_true'] at hnull
    obtain ⟨rfl, hnext⟩ := hnull
    refine .one (e := .null) rfl fun d hd hhead => ?_
    have hhead : cs.head? = some d := hhead
    rw [hhead, Option.any_some, isDigit_iff.2 hd] at hnext
    cases hnext
  next hnull =>
  rw [if_neg hnull]
  split at h
  · next hoctal =>
    rw [if_pos hoctal]
    simp only [Bool.and_eq_true, Bool.not_eq_true'] at hoctal
    obtain ⟨hoctal, htemplate⟩ := hoctal
    have hdigits : c = '0' → ∃ d ∈ decimalDigits, cs.head? = some d := by
      rintro rfl
      simpa [Option.any_eq_true, isDigit_iff, and_comm] using hnull
    obtain ⟨ds, rest, rfl, hlength, hlegacy⟩ :=
      octalEscape_legacy (isOctalDigit_iff.1 hoctal) hdigits
    rw [hlength, Nat.add_comm]
    refine .one (e := .octal (c :: ds)) (by simp [Element.source]) ⟨?_, by simpa using hlegacy⟩
    rintro rfl
    cases htemplate
  next hoctal =>
  rw [if_neg hoctal]
  split at h
  · cases h.valid
  next hdigit =>
  rw [if_neg hdigit]
  split at h
  · next hu =>
    rw [if_pos hu]
    obtain rfl := eq_of_beq hu
    exact unicodeEscape_escaped h
  next hu =>
  rw [if_neg hu]
  split at h
  · next hx =>
    rw [if_pos hx]
    obtain rfl := eq_of_beq hx
    unfold Quoted.hexEscape at h ⊢
    split at h
    · next d hd =>
      obtain ⟨k, hk, -⟩ := Option.bind_eq_some_iff.1 hd
      obtain ⟨hlength, hmem, -⟩ := of_hexDigits? hk
      exact .one (e := .hex (cs.take 2)) rfl ⟨hlength, hmem⟩
    · cases h.valid
  next hx =>
  rw [if_neg hx]
  split at h
  · next hreturn =>
    rw [if_pos hreturn]
    obtain rfl := eq_of_beq hreturn
    by_cases hfeed : cs.head? = some '\n'
    · obtain ⟨ds, rfl⟩ := List.head?_eq_some_iff.1 hfeed
      exact .one (e := .continuation ['\r', '\n']) rfl ⟨by decide, by simp⟩
    · have hlength : (if cs.head? == some '\n' then 2 else 1) = 1 := if_neg (by simpa using hfeed)
      simp only [hlength]
      exact .one (e := .continuation ['\r']) rfl ⟨by decide, fun _ => hfeed⟩
  next hreturn =>
  rw [if_neg hreturn]
  split at h
  · next hbreak =>
    rw [if_pos hbreak]
    refine .one (e := .continuation [c]) rfl ⟨isLineBreak_iff.1 hbreak, fun hc => ?_⟩
    obtain rfl : c = '\r' := by simpa using hc
    exact absurd rfl hreturn
  · next hbreak =>
    rw [if_neg hbreak]
    refine .one (e := .escaped c) rfl ⟨by simpa using hu, by simpa using hx,
      fun hc => hbreak (isLineBreak_iff.2 hc), fun hc => ?_⟩
    rw [isDigit_iff.2 hc, Bool.true_and, Bool.not_eq_true] at hdigit
    rw [hdigit, Bool.not_false, Bool.and_true, isOctalDigit_iff] at hoctal
    refine ⟨?_, (List.mem_append.1 hc).resolve_left hoctal⟩
    rintro rfl
    cases hdigit

/-! ### Bodies -/

section

variable {content : List Char} {es : List Element} {quote : Char} {more : Bool} {n : Nat}

lemma closes_quote (h : quote = '"' ∨ quote = '\x27') : Closes quote := by
  rcases h with rfl | rfl <;> exact ⟨by decide, by decide, by decide⟩

/-- What ends a piece of a template: a substitution, or the backtick. -/
def closing (more : Bool) : List Char := if more then ['$', '\x7b'] else ['\x60']

lemma closing_eq (more : Bool) : ∃ d ds, closing more = d :: ds ∧ Closes d := by
  cases more with
  | true => exact ⟨'$', ['\x7b'], rfl, by decide, by decide, by decide⟩
  | false => exact ⟨'\x60', [], rfl, by decide, by decide, by decide⟩

/-- An escape before a text that reads is part of one that does. -/
lemma Escaped.reads (h : Escaped style cs n) (hd : Closes d)
    (hdrop : cs.drop n = content ++ d :: rest) (hreads : Reads style content es) :
    ∃ es, Reads style ('\\' :: cs.take n ++ content) es := by
  cases h with
  | one source fits =>
    rw [hdrop, Element.fits_append hd] at fits
    rw [← source]
    exact ⟨_, .cons fits hreads⟩
  | @two high low source high_fits low_fits =>
    have hlow : Reads style ('\\' :: 'u' :: low ++ content) (.unit low :: es) :=
      .cons (e := .unit low) low_fits hreads
    have hhigh : Reads style ('\\' :: 'u' :: high ++ ('\\' :: 'u' :: low ++ content)) _ :=
      .cons (e := .unit high) high_fits hlow
    rw [source]
    exact ⟨_, by simpa using hhigh⟩

/-- An escape ends before the literal does. -/
lemma length_of_drop (hdrop : cs.drop n = content ++ d :: rest) :
    ('\\' :: cs.take n ++ content).length = 1 + n + content.length ∧
      '\\' :: cs = '\\' :: cs.take n ++ content ++ d :: rest := by
  have hle : n ≤ cs.length := by
    by_contra hlt
    rw [List.drop_of_length_le (by omega)] at hdrop
    simp at hdrop
  constructor
  · simp only [List.cons_append, List.length_cons, List.length_append, List.length_take]
    omega
  · conv_lhs => rw [← List.take_append_drop n cs, hdrop]
    simp

/-- **A string that is read without a complaint is one of the language.** -/
theorem stringBody_reads (hquote : quote = '"' ∨ quote = '\x27') (cs : List Char)
    (h : Clean (Quoted.stringBody quote false cs).flags) :
    ∃ content rest, cs = content ++ quote :: rest ∧
      (Quoted.stringBody quote false cs).length = content.length + 1 ∧
      ∃ es, Reads (.string quote) content es := by
  have hcloses := closes_quote hquote
  generalize hverbatim : false = verbatim at h ⊢
  fun_induction Quoted.stringBody quote verbatim cs with
  | case1 => cases h.closed
  | case2 c cs hc =>
    obtain rfl := eq_of_beq hc
    exact ⟨[], cs, rfl, rfl, [], .nil⟩
  | case3 c cs _ hv => exact absurd hv (by simp [← hverbatim])
  | case4 c cs _ _ hc e ih =>
    obtain rfl := eq_of_beq hc
    obtain ⟨hescape, hbody⟩ := clean_union.1 h
    obtain ⟨content, rest, hdrop, hlength, es, hreads⟩ := ih hbody
    have hescaped : Escaped (.string quote) cs e.length := escape_escaped cs hescape
    obtain ⟨hwhole, hcs⟩ := length_of_drop hdrop
    refine ⟨_, rest, hcs, ?_, hescaped.reads hcloses hdrop hreads⟩
    rw [hwhole]
    simp only [Quoted.Body.prepend, hlength]
    exact (Nat.add_assoc ..).symm
  | case5 c cs => cases h.closed
  | case6 c cs hq hv hc hbreak ih =>
    obtain ⟨content, rest, rfl, hlength, es, hreads⟩ := ih (clean_union.1 h).2
    simp only [Bool.or_eq_true, beq_iff_eq, not_or] at hq hc hbreak
    refine ⟨c :: content, rest, rfl, ?_, _, .cons (e := .plain c) ⟨hq, hc, hbreak⟩ hreads⟩
    simp only [Quoted.Body.prepend, hlength, List.length_cons]
    omega

theorem templateBody_reads (cs : List Char) (h : Clean (Quoted.templateBody cs).1.flags) :
    ∃ content rest, cs = content ++ closing (Quoted.templateBody cs).2 ++ rest ∧
      (Quoted.templateBody cs).1.length =
        content.length + (closing (Quoted.templateBody cs).2).length ∧
      ∃ es, Reads .template content es := by
  fun_induction Quoted.templateBody cs with
  | case1 => cases h.closed
  | case2 c cs hc =>
    obtain rfl := eq_of_beq hc
    exact ⟨[], cs, rfl, rfl, [], .nil⟩
  | case3 c cs _ hc =>
    simp only [Bool.and_eq_true, beq_iff_eq] at hc
    obtain ⟨rfl, hhead⟩ := hc
    obtain ⟨rest, rfl⟩ := List.head?_eq_some_iff.1 hhead
    exact ⟨[], rest, rfl, rfl, [], .nil⟩
  | case4 c cs _ _ hc e b more hbody ih =>
    obtain rfl := eq_of_beq hc
    obtain ⟨hescape, hrest⟩ := clean_union.1 h
    rw [hbody] at ih
    obtain ⟨content, rest, hdrop, hlength, es, hreads⟩ := ih hrest
    obtain ⟨d, ds, hclosing, hcloses⟩ := closing_eq more
    simp only at hdrop hlength ⊢
    rw [hclosing] at hdrop hlength ⊢
    rw [List.append_assoc, List.cons_append] at hdrop
    have hescaped : Escaped .template cs e.length := escape_escaped cs hescape
    obtain ⟨hwhole, hcs⟩ := length_of_drop hdrop
    refine ⟨_, rest, by rw [hcs]; simp, ?_, hescaped.reads hcloses hdrop hreads⟩
    rw [hwhole]
    simp only [Quoted.Body.prepend, hlength]
    exact (Nat.add_assoc ..).symm
  | case5 c cs _ _ _ hc k b more hbody ih =>
    obtain rfl := eq_of_beq hc
    rw [hbody] at ih
    obtain ⟨content, rest, hdrop, hlength, es, hreads⟩ := ih (clean_union.1 h).2
    obtain ⟨d, ds, hclosing, hcloses⟩ := closing_eq more
    simp only at hdrop hlength ⊢
    rw [hclosing] at hdrop hlength ⊢
    rw [List.append_assoc, List.cons_append] at hdrop
    by_cases hfeed : cs.head? = some '\n'
    · obtain ⟨cs, rfl⟩ := List.head?_eq_some_iff.1 hfeed
      have hk : k = 1 := rfl
      rw [hk, List.drop_succ_cons, List.drop_zero] at hdrop
      have hfits : (Element.carriageReturn true).Fits .template content.head? := ⟨rfl, by simp⟩
      refine ⟨'\r' :: '\n' :: content, rest, by simp [hdrop], ?_, _, .cons hfits hreads⟩
      simp only [Quoted.Body.prepend, hlength, hk, List.length_cons]
      omega
    · have hk : k = 0 := if_neg (by simpa using hfeed)
      rw [hk, List.drop_zero] at hdrop
      have hfits : (Element.carriageReturn false).Fits .template content.head? := by
        have hnext : (content ++ d :: (ds ++ rest)).head? ≠ some '\n' := hdrop ▸ hfeed
        exact (Element.fits_append hcloses).1 ⟨rfl, fun _ => hnext⟩
      refine ⟨'\r' :: content, rest, by simp [hdrop], ?_, _, .cons hfits hreads⟩
      simp only [Quoted.Body.prepend, hlength, hk, List.length_cons]
      omega
  | case6 c cs hq hdollar hc hreturn b more hbody ih =>
    rw [hbody] at ih
    obtain ⟨content, rest, hrest, hlength, es, hreads⟩ := ih (clean_union.1 h).2
    obtain ⟨d, ds, hclosing, hcloses⟩ := closing_eq more
    simp only at hrest hlength ⊢
    rw [hclosing] at hrest hlength ⊢
    rw [List.append_assoc, List.cons_append] at hrest
    simp only [Bool.and_eq_true, beq_iff_eq, not_and] at hq hdollar hc hreturn
    have hfits : (Element.plain c).Fits .template content.head? := by
      have hnext : c = '$' → (content ++ d :: (ds ++ rest)).head? ≠ some '\x7b' := hrest ▸ hdollar
      exact (Element.fits_append hcloses).1 ⟨hq, hc, hreturn, hnext⟩
    refine ⟨c :: content, rest, by simp [hrest], ?_, _, .cons hfits hreads⟩
    simp only [Quoted.Body.prepend, hlength, List.length_cons]
    omega

/-! ### The value of a row of elements -/

/-- A body has been read up to where it ends, with a value. -/
structure Cooks (b : Quoted.Body) (length : Nat) (units : List Nat) : Prop where
  length_eq : b.length = length
  clean : Clean b.flags
  value_eq : encodeText b.value = units

lemma Cooks.prepend {b : Quoted.Body} {value : List Char} {flags : TokenFlags} {m n : Nat}
    {us vs : List Nat} (h : Cooks b n vs) (hflags : Clean flags) (hvalue : encodeText value = us) :
    Cooks (b.prepend value m flags) (m + n) (us ++ vs) where
  length_eq := congrArg (m + ·) h.length_eq
  clean := clean_union.2 ⟨hflags, h.clean⟩
  value_eq := by
    simp only [Quoted.Body.prepend, encodeText_append, hvalue, h.value_eq]

/-- `P cs n vs` says that from `cs` on `n` characters are read, with the value `vs`. An element in
front of what is read so adds its characters and its value. -/
structure Extends (style : Style) (P : List Char → Nat → List Nat → Prop) : Prop where
  plain {c : Char} {cs : List Char} {n : Nat} {vs : List Nat}
    (fits : (Element.plain c).Fits style cs.head?) (rest : P cs n vs) :
    P (c :: cs) (1 + n) (encode c.toNat ++ vs)
  carriageReturn {feed : Bool} {cs : List Char} {n : Nat} {vs : List Nat}
    (fits : (Element.carriageReturn feed).Fits style cs.head?) (rest : P cs n vs) :
    P ((Element.carriageReturn feed).source ++ cs)
      ((Element.carriageReturn feed).source.length + n) ('\n'.toNat :: vs)
  escape {tail cs : List Char} {n : Nat} {us vs : List Nat}
    (decodes : Decodes (Quoted.escape style.isTemplate (tail ++ cs)) tail.length us)
    (rest : P cs n vs) : P ('\\' :: (tail ++ cs)) (1 + tail.length + n) (us ++ vs)

lemma Element.source_cases (e : Element) :
    (∃ c, e = .plain c) ∨ (∃ feed, e = .carriageReturn feed) ∨ ∃ tail, e.source = '\\' :: tail := by
  cases e with
  | plain c => exact .inl ⟨c, rfl⟩
  | carriageReturn feed => exact .inr (.inl ⟨feed, rfl⟩)
  | escaped | null | octal | hex | unit | point | continuation => exact .inr (.inr ⟨_, rfl⟩)

/-- What the two halves of a pair are read as, from behind the first backslash. -/
lemma halves_decode (style : Style) {high low : List Char}
    (hhighs : (Element.unit high).Fits style none) (hlows : (Element.unit low).Fits style none)
    (hfirst : 0xD800 ≤ number 16 high ∧ number 16 high < 0xDC00)
    (hsecond : 0xDC00 ≤ number 16 low ∧ number 16 low < 0xE000) (isTemplate : Bool) :
    Decodes (Quoted.escape isTemplate ('u' :: (high ++ '\\' :: 'u' :: low) ++ cs))
      ('u' :: (high ++ '\\' :: 'u' :: low)).length [number 16 high, number 16 low] := by
  have hescape : Quoted.escape isTemplate ('u' :: (high ++ '\\' :: 'u' :: low) ++ cs) =
      Quoted.unicodeEscape (high ++ ('\\' :: 'u' :: (low ++ cs))) := by
    simp [Quoted.escape, Number.isOctalDigit]
  have hlength : ('u' :: (high ++ '\\' :: 'u' :: low)).length = 11 := by
    simp [hhighs.1, hlows.1]
  rw [hescape, hlength]
  exact pair_decodes hhighs.1 hlows.1 hhighs.2 hlows.2 hfirst hsecond

/-- **A text of the language is read up to where it ends, with its value.** The induction is on
the elements; the halves of a pair are read in one step. -/
theorem Extends.of_reads {P : List Char → Nat → List Nat → Prop} (hP : Extends style P)
    (hd : Closes d) (hend : P (d :: rest) n []) (hpaired : Paired es)
    (h : Reads style content es) : P (content ++ d :: rest) (content.length + n) (unitsOf es) := by
  induction hpaired generalizing content with
  | nil =>
    cases h
    rw [List.nil_append, List.length_nil, Nat.zero_add]
    exact hend
  | @cons e es hcode _ ih =>
    cases h with
    | @cons _ _ cs fits hrest =>
    have htail := ih hrest
    have hfits : e.Fits style (cs ++ d :: rest).head? := (Element.fits_append hd).2 fits
    rw [List.length_append, Nat.add_assoc, List.append_assoc]
    rcases e.source_cases with ⟨c, rfl⟩ | ⟨feed, rfl⟩ | ⟨tail, hsource⟩
    · exact hP.plain hfits htail
    · exact hP.carriageReturn hfits htail
    · have hwhole := hP.escape (escape_decodes hsource hfits hcode) htail
      rw [hsource, List.cons_append, List.length_cons, Nat.add_comm tail.length]
      exact hwhole
  | @pair high low es hfirst hsecond _ ih =>
    cases h with
    | @cons _ _ _ fits hrest =>
    cases hrest with
    | @cons _ _ cs fits' hrest =>
    have hhalves : Decodes (Quoted.escape style.isTemplate
        ('u' :: (high ++ '\\' :: 'u' :: low) ++ (cs ++ d :: rest)))
        ('u' :: (high ++ '\\' :: 'u' :: low)).length [number 16 high, number 16 low] :=
      halves_decode style fits fits' hfirst hsecond style.isTemplate
    have hwhole := hP.escape hhalves (ih hrest)
    have htext : (Element.unit high).source ++ ((Element.unit low).source ++ cs) ++ d :: rest =
        '\\' :: ('u' :: (high ++ '\\' :: 'u' :: low) ++ (cs ++ d :: rest)) := by
      simp [Element.source]
    have hlength : ((Element.unit high).source ++ ((Element.unit low).source ++ cs)).length + n =
        1 + ('u' :: (high ++ '\\' :: 'u' :: low)).length + (cs.length + n) := by
      simp [Element.source]
      omega
    rw [htext, hlength]
    exact hwhole

/-- A string in its quotes is read element by element. -/
lemma stringBody_extends (hquote : quote = '"' ∨ quote = '\x27') :
    Extends (.string quote) fun cs n vs => Cooks (Quoted.stringBody quote false cs) n vs where
  plain {c cs n vs} fits hrest := by
    obtain ⟨hq, hslash, hfeed, hreturn⟩ := fits
    have hbody : Quoted.stringBody quote false (c :: cs) =
        (Quoted.stringBody quote false cs).prepend [c] 1 {} := by
      rw [Quoted.stringBody.eq_def]
      simp [hq, hslash, hfeed, hreturn]
    rw [hbody]
    exact hrest.prepend ⟨rfl, rfl⟩ (by simp)
  carriageReturn fits _ := absurd fits.1 (by simp)
  escape {tail cs n us vs} h hrest := by
    have hne : ('\\' == quote) = false := by rcases hquote with rfl | rfl <;> decide
    have hbody : Quoted.stringBody quote false ('\\' :: (tail ++ cs)) =
        (Quoted.stringBody quote false cs).prepend (Quoted.escape false (tail ++ cs)).value
          (1 + tail.length) (Quoted.escape false (tail ++ cs)).flags := by
      have hlength : (Quoted.escape false (tail ++ cs)).length = tail.length := h.length_eq
      rw [Quoted.stringBody.eq_def]
      simp only [hne, Bool.false_eq_true, if_false, beq_self_eq_true, if_true, hlength,
        List.drop_left]
    rw [hbody]
    exact hrest.prepend h.clean h.value_eq

/-- A piece of a template is read element by element. -/
lemma templateBody_extends (more : Bool) :
    Extends .template fun cs n vs =>
      Cooks (Quoted.templateBody cs).1 n vs ∧ (Quoted.templateBody cs).2 = more where
  plain {c cs n vs} fits hrest := by
    obtain ⟨hq, hslash, hreturn, hdollar⟩ := fits
    have hbody : Quoted.templateBody (c :: cs) =
        ((Quoted.templateBody cs).1.prepend [c] 1 {}, (Quoted.templateBody cs).2) := by
      have hopen : (c == '$' && cs.head? == some '\x7b') = false := by simpa using hdollar
      rw [Quoted.templateBody.eq_def]
      simp [hq, hslash, hreturn, hopen]
    rw [hbody]
    exact ⟨hrest.1.prepend ⟨rfl, rfl⟩ (by simp), hrest.2⟩
  carriageReturn {feed cs n vs} fits hrest := by
    have hbody : Quoted.templateBody ((Element.carriageReturn feed).source ++ cs) =
        ((Quoted.templateBody cs).1.prepend ['\n'] (Element.carriageReturn feed).source.length {},
          (Quoted.templateBody cs).2) := by
      cases feed with
      | true =>
        rw [Element.source, if_pos rfl, List.cons_append, Quoted.templateBody.eq_def]
        simp
      | false =>
        have hfeed : cs.head? ≠ some '\n' := fits.2 rfl
        rw [Element.source, if_neg (by simp), List.cons_append, Quoted.templateBody.eq_def]
        simp [hfeed]
    rw [hbody]
    have hfeed : encodeText ['\n'] = ['\n'.toNat] := rfl
    exact ⟨hrest.1.prepend ⟨rfl, rfl⟩ hfeed, hrest.2⟩
  escape {tail cs n us vs} h hrest := by
    have hbody : Quoted.templateBody ('\\' :: (tail ++ cs)) =
        ((Quoted.templateBody cs).1.prepend (Quoted.escape true (tail ++ cs)).value
          (1 + tail.length) (Quoted.escape true (tail ++ cs)).flags,
          (Quoted.templateBody cs).2) := by
      have hquote : ('\\' == '\x60') = false := by decide
      have hdollar : ('\\' == '$') = false := by decide
      have hlength : (Quoted.escape true (tail ++ cs)).length = tail.length := h.length_eq
      rw [Quoted.templateBody.eq_def]
      simp only [hquote, hdollar, Bool.false_and, Bool.false_eq_true, if_false, beq_self_eq_true,
        if_true, hlength, List.drop_left]
    rw [hbody]
    exact ⟨hrest.1.prepend h.clean h.value_eq, hrest.2⟩

theorem stringBody_of_reads (hquote : quote = '"' ∨ quote = '\x27') (hpaired : Paired es)
    (h : Reads (.string quote) content es) (rest : List Char) :
    Cooks (Quoted.stringBody quote false (content ++ quote :: rest)) (content.length + 1)
      (unitsOf es) := by
  have hbody : Quoted.stringBody quote false (quote :: rest) = { length := 1 } := by
    rw [Quoted.stringBody.eq_def]
    simp
  have hend : Cooks (Quoted.stringBody quote false (quote :: rest)) 1 [] := by
    rw [hbody]
    exact ⟨rfl, ⟨rfl, rfl⟩, rfl⟩
  exact (stringBody_extends hquote).of_reads (closes_quote hquote) hend hpaired h

theorem templateBody_of_reads (hpaired : Paired es) (h : Reads .template content es) (more : Bool)
    (rest : List Char) :
    Cooks (Quoted.templateBody (content ++ closing more ++ rest)).1
      (content.length + (closing more).length) (unitsOf es) := by
  obtain ⟨d, ds, hclosing, hcloses⟩ := closing_eq more
  have hbody : Quoted.templateBody (closing more ++ rest) =
      ({ length := (closing more).length }, more) := by
    rw [Quoted.templateBody.eq_def]
    cases more <;> simp [closing]
  have hend : Cooks (Quoted.templateBody (closing more ++ rest)).1 (closing more).length [] ∧
      (Quoted.templateBody (closing more ++ rest)).2 = more := by
    rw [hbody]
    exact ⟨⟨rfl, ⟨rfl, rfl⟩, rfl⟩, rfl⟩
  rw [hclosing] at hend ⊢
  rw [List.append_assoc, List.cons_append]
  exact ((templateBody_extends more).of_reads hcloses hend hpaired h).1

end

end Literal

end EstreeLint
