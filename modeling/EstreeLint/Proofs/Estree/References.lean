import EstreeLint.Estree.Entity
import Mathlib.Data.Nat.Digits.Lemmas
import Mathlib.Tactic.Ring

/-!
Character references, as a grammar and as the text they stand for.

`Reference` says what a reference is: a name of the table, or the code of a character in decimal or
hexadecimal digits, which a sign may precede. `Decodes` replaces the references of a text from left
to right. A plus sign is the one sign that is read, so without one the digits stand alone.
-/

namespace EstreeLint.Estree.Entity

/-! ### The grammar -/

/-- A digit in a radix of at most 16, in either case. -/
def Digit (radix : Nat) (c : Char) (d : Nat) : Prop :=
  d < radix ∧ (c = Nat.digitChar d ∨ c = (Nat.digitChar d).toUpper)

/-- One or more digits, the highest first. -/
def Numeral (radix : Nat) (cs : List Char) (n : Nat) : Prop :=
  cs ≠ [] ∧ ∃ ds, List.Forall₂ (Digit radix) cs ds ∧ n = Nat.ofDigits radix ds.reverse

/-- What stands between the ampersand and the semicolon of a reference, if the digits of a number
may follow one of `signs`. -/
inductive Reference (signs : List (List Char)) : List Char → Char → Prop
  | named {name : String} {c : Char} (h : (name, c) ∈ named) : Reference signs name.toList c
  | decimal {sign digits : List Char} {c : Char} (hsign : sign ∈ signs)
    (h : Numeral 10 digits c.toNat) : Reference signs ('#' :: (sign ++ digits)) c
  | hexadecimal {x : Char} {sign digits : List Char} {c : Char} (hx : x = 'x' ∨ x = 'X')
    (hsign : sign ∈ signs) (h : Numeral 16 digits c.toNat) :
    Reference signs ('#' :: x :: (sign ++ digits)) c

/-- A text that begins with the reference `name` for `c`, and what follows it. -/
structure Begins (signs : List (List Char)) (cs name : List Char) (c : Char) (rest : List Char) :
    Prop where
  eq : cs = '&' :: (name ++ ';' :: rest)
  short : Text.bytes name ≤ 10
  reference : Reference signs name c

/-- A text, and what is left when its references are replaced from left to right. -/
inductive Decodes (signs : List (List Char)) : List Char → List Char → Prop
  | nil : Decodes signs [] []
  | reference {cs name rest out : List Char} {c : Char} (h : Begins signs cs name c rest)
    (hrest : Decodes signs rest out) : Decodes signs cs (c :: out)
  | kept {c : Char} {rest out : List Char}
    (h : ∀ name d after, ¬ Begins signs (c :: rest) name d after)
    (hrest : Decodes signs rest out) : Decodes signs (c :: rest) (c :: out)

/-- Digits alone. -/
def unsigned : List (List Char) := [[]]

/-- Digits alone or behind a plus sign. -/
def plusSigned : List (List Char) := [[], ['+']]

/-! ### Digits -/

lemma toNat_digitChar {d : Nat} (h : d < 16) :
    (Nat.digitChar d).toNat = (if d < 10 then 48 + d else 87 + d) ∧
      (Nat.digitChar d).toUpper.toNat = if d < 10 then 48 + d else 55 + d := by
  revert h
  revert d
  decide

lemma isDigit_iff (c : Char) : c.isDigit = true ↔ 48 ≤ c.toNat ∧ c.toNat ≤ 57 := by
  rw [Char.isDigit, Bool.and_eq_true, decide_eq_true_eq, decide_eq_true_eq]
  exact Iff.rfl

lemma digit?_eq_some_iff {radix d : Nat} {c : Char} (hradix : radix ≤ 16) :
    digit? radix c = some d ↔ Digit radix c d := by
  -- both sides say in which of three ranges the code of the character is, and where in it
  have hlower : ('a' ≤ c && c ≤ 'f') = true ↔ 97 ≤ c.toNat ∧ c.toNat ≤ 102 := by
    rw [Bool.and_eq_true, decide_eq_true_eq, decide_eq_true_eq]
    exact Iff.rfl
  have hupper : ('A' ≤ c && c ≤ 'F') = true ↔ 65 ≤ c.toNat ∧ c.toNat ≤ 70 := by
    rw [Bool.and_eq_true, decide_eq_true_eq, decide_eq_true_eq]
    exact Iff.rfl
  have hzero : '0'.toNat = 48 := rfl
  have hleft : 'a'.toNat = 97 ∧ 'A'.toNat = 65 := ⟨rfl, rfl⟩
  have hvalue : digit? radix c = some d ↔ d < radix ∧
      (48 ≤ c.toNat ∧ c.toNat ≤ 57 ∧ d = c.toNat - 48 ∨
        97 ≤ c.toNat ∧ c.toNat ≤ 102 ∧ d = c.toNat - 87 ∨
        65 ≤ c.toNat ∧ c.toNat ≤ 70 ∧ d = c.toNat - 55) := by
    simp only [digit?, isDigit_iff, hlower, hupper, Option.ite_none_right_eq_some,
      Option.some.injEq]
    split_ifs <;> omega
  rw [hvalue, Digit]
  refine and_congr_right fun hd => ?_
  obtain ⟨hlow, hup⟩ := toNat_digitChar (d := d) (by omega)
  rw [← Char.toNat_inj, ← Char.toNat_inj, hlow, hup]
  split_ifs <;> omega

lemma foldlM_digits_iff {radix n : Nat} (hradix : radix ≤ 16) (cs : List Char) (a : Nat) :
    cs.foldlM (fun n c => (digit? radix c).map (radix * n + ·)) a = some n ↔
      ∃ ds, List.Forall₂ (Digit radix) cs ds ∧
        n = radix ^ ds.length * a + Nat.ofDigits radix ds.reverse := by
  induction cs generalizing a with
  | nil => simp [eq_comm]
  | cons c cs ih =>
    have hstep (d : Nat) (ds : List Nat) :
        radix ^ (d :: ds).length * a + Nat.ofDigits radix (d :: ds).reverse =
          radix ^ ds.length * (radix * a + d) + Nat.ofDigits radix ds.reverse := by
      rw [List.reverse_cons, Nat.ofDigits_append, Nat.ofDigits_singleton, List.length_reverse,
        List.length_cons]
      ring
    rw [List.foldlM_cons]
    constructor
    · intro h
      obtain ⟨m, hm, h⟩ := Option.bind_eq_some_iff.1 h
      obtain ⟨d, hd, rfl⟩ := Option.map_eq_some_iff.1 hm
      obtain ⟨ds, hds, rfl⟩ := (ih _).1 h
      exact ⟨d :: ds, .cons ((digit?_eq_some_iff hradix).1 hd) hds, (hstep d ds).symm⟩
    · rintro ⟨ds, hds, rfl⟩
      obtain _ | ⟨hd, hds⟩ := hds
      rename_i d ds
      refine Option.bind_eq_some_iff.2 ⟨radix * a + d, ?_, (ih _).2 ⟨ds, hds, hstep d ds⟩⟩
      rw [(digit?_eq_some_iff hradix).2 hd, Option.map_some]

lemma digits?_eq_some_iff {radix n : Nat} {cs : List Char} (hradix : radix ≤ 16) :
    digits? radix cs = some n ↔ Numeral radix cs n := by
  rw [digits?, Numeral]
  cases cs with
  | nil => simp
  | cons c cs =>
    rw [List.isEmpty_cons, if_neg Bool.false_ne_true, foldlM_digits_iff hradix]
    simp

/-- No digit is a sign, a semicolon or the mark of a hexadecimal number. -/
lemma Digit.ne {radix d : Nat} {c : Char} (h : Digit radix c d) (hradix : radix ≤ 16) :
    c ∉ ['+', ';', 'x', 'X'] := by
  obtain ⟨hd, hc⟩ := h
  have hall : ∀ d < 16, Nat.digitChar d ∉ ['+', ';', 'x', 'X'] ∧
      (Nat.digitChar d).toUpper ∉ ['+', ';', 'x', 'X'] := by decide
  obtain ⟨hlower, hupper⟩ := hall d (by omega)
  rcases hc with rfl | rfl
  · exact hlower
  · exact hupper

lemma Numeral.ne {radix n : Nat} {cs : List Char} (h : Numeral radix cs n) (hradix : radix ≤ 16) :
    ∀ c ∈ cs, c ∉ ['+', ';', 'x', 'X'] := by
  obtain ⟨-, ds, hds, -⟩ := h
  induction hds with
  | nil => simp
  | cons hd _ ih => exact List.forall_mem_cons.2 ⟨hd.ne hradix, ih⟩

lemma number?_eq_some_iff {radix n : Nat} {cs : List Char} (hradix : radix ≤ 16) :
    number? radix cs = some n ↔
      ∃ sign ∈ plusSigned, ∃ digits, cs = sign ++ digits ∧ Numeral radix digits n := by
  unfold number? plusSigned
  split
  · next cs =>
    rw [digits?_eq_some_iff hradix]
    refine ⟨fun h => ⟨['+'], by simp, cs, rfl, h⟩, ?_⟩
    rintro ⟨sign, hsign, digits, heq, h⟩
    rcases List.mem_pair.1 hsign with rfl | rfl
    · -- a plus sign is no digit
      have := h.ne hradix '+' (by rw [← show _ = digits from heq]; simp)
      simp at this
    · obtain rfl : cs = digits := by simpa using heq
      exact h
  · next hplus =>
    rw [digits?_eq_some_iff hradix]
    refine ⟨fun h => ⟨[], by simp, cs, rfl, h⟩, ?_⟩
    rintro ⟨sign, hsign, digits, rfl, h⟩
    rcases List.mem_pair.1 hsign with rfl | rfl
    · exact h
    · exact (hplus digits rfl).elim

lemma ofCode?_eq_some_iff {n : Nat} {c : Char} : ofCode? n = some c ↔ n = c.toNat := by
  rw [ofCode?]
  split
  · next h =>
    have hcode : (Char.ofNat n).toNat = n := by
      rw [Char.ofNat, dif_pos h]
      rfl
    rw [Option.some.injEq, ← Char.toNat_inj, hcode]
  · next h =>
    refine ⟨fun hn => (Option.some_ne_none c hn.symm).elim, ?_⟩
    rintro rfl
    exact (h c.valid).elim

lemma code_eq_some_iff {radix : Nat} {cs : List Char} {c : Char} (hradix : radix ≤ 16) :
    (number? radix cs).bind ofCode? = some c ↔
      ∃ sign ∈ plusSigned, ∃ digits, cs = sign ++ digits ∧ Numeral radix digits c.toNat := by
  rw [Option.bind_eq_some_iff, ← number?_eq_some_iff hradix]
  simp only [ofCode?_eq_some_iff, exists_eq_right]

/-! ### References -/

lemma lookup?_named : ∀ p ∈ named, lookup? p.1.toList = some p.2 := by
  decide

lemma lookup?_eq_some_iff {name : List Char} {c : Char} :
    lookup? name = some c ↔ Reference plusSigned name c := by
  constructor
  · intro h
    unfold lookup? at h
    split at h
    · obtain ⟨sign, hsign, digits, rfl, hn⟩ := (code_eq_some_iff (by decide)).1 h
      exact .hexadecimal (.inl rfl) hsign hn
    · obtain ⟨sign, hsign, digits, rfl, hn⟩ := (code_eq_some_iff (by decide)).1 h
      exact .hexadecimal (.inr rfl) hsign hn
    · obtain ⟨sign, hsign, digits, rfl, hn⟩ := (code_eq_some_iff (by decide)).1 h
      exact .decimal hsign hn
    · obtain ⟨l₁, l₂, heq, -⟩ := List.lookup_eq_some_iff.1 h
      have hmem : (String.ofList name, c) ∈ named := heq ▸ by simp
      simpa using (Reference.named hmem : Reference plusSigned _ c)
  · intro h
    cases h with
    | named h => exact lookup?_named _ h
    | @hexadecimal x sign digits _ hx hsign h =>
      have hcode := (code_eq_some_iff (c := c) (by decide)).2 ⟨sign, hsign, digits, rfl, h⟩
      rcases hx with rfl | rfl
      · exact hcode
      · exact hcode
    | @decimal sign digits _ hsign h =>
      have hcode := (code_eq_some_iff (c := c) (by decide)).2 ⟨sign, hsign, digits, rfl, h⟩
      have hne : ∀ x ∈ sign ++ digits, x ∉ ['x', 'X'] := by
        intro x hx
        rcases List.mem_append.1 hx with hx | hx
        · rcases List.mem_pair.1 hsign with rfl | rfl
          · simp at hx
          · obtain rfl := List.mem_singleton.1 hx
            decide
        · exact fun hmem => h.ne (by decide) x hx (by simp_all)
      unfold lookup?
      split
      · next heq =>
        have := hne 'x' (by rw [(List.cons.inj heq).2]; simp)
        simp at this
      · next heq =>
        have := hne 'X' (by rw [(List.cons.inj heq).2]; simp)
        simp at this
      · next heq => rwa [← (List.cons.inj heq).2]
      · next hno => exact (hno _ rfl).elim

/-- A reference has no semicolon in it, and is not empty. -/
lemma Reference.closed {name : List Char} {c : Char} (h : Reference plusSigned name c) :
    ';' ∉ name ∧ name ≠ [] := by
  have hsigned {radix n : Nat} {sign digits : List Char} (hradix : radix ≤ 16)
      (hsign : sign ∈ plusSigned) (h : Numeral radix digits n) : ';' ∉ sign ++ digits := by
    rw [List.mem_append, not_or]
    refine ⟨?_, fun hmem => h.ne hradix ';' hmem (by simp)⟩
    rcases List.mem_pair.1 hsign with rfl | rfl <;> decide
  cases h with
  | named h =>
    have hall : ∀ p ∈ Entity.named, ';' ∉ p.1.toList ∧ p.1.toList ≠ [] := by decide
    exact hall _ h
  | decimal hsign h => simpa using hsigned (by decide) hsign h
  | hexadecimal hx hsign h =>
    have := hsigned (by decide) hsign h
    rcases hx with rfl | rfl <;> simpa using this

lemma read?_eq_some_iff {cs : List Char} {c : Char} {n : Nat} :
    read? cs = some (c, n) ↔
      ∃ name rest, Begins plusSigned ('&' :: cs) name c rest ∧ n = name.length + 1 := by
  constructor
  · intro h
    simp only [read?, Option.ite_none_right_eq_some, Bool.and_eq_true, decide_eq_true_eq] at h
    obtain ⟨⟨⟨hlt, -⟩, hshort⟩, h⟩ := h
    obtain ⟨d, hd, heq⟩ := Option.map_eq_some_iff.1 h
    obtain ⟨rfl, rfl⟩ := Prod.mk.inj heq
    -- the name is followed by the character that stopped it
    have hsplit := List.takeWhile_append_dropWhile (p := (· != ';')) (l := cs)
    have hrest : cs.dropWhile (· != ';') ≠ [] := by
      intro hnil
      rw [hnil, List.append_nil] at hsplit
      rw [hsplit] at hlt
      omega
    obtain ⟨e, rest, hdrop⟩ := List.exists_cons_of_ne_nil hrest
    obtain rfl : e = ';' := by
      have := List.head_dropWhile_not (· != ';') hrest
      simpa [hdrop] using this
    rw [hdrop] at hsplit
    exact ⟨_, rest, ⟨by rw [hsplit], hshort, lookup?_eq_some_iff.1 hd⟩, rfl⟩
  · rintro ⟨name, rest, ⟨heq, hshort, href⟩, rfl⟩
    obtain rfl := (List.cons.inj heq).2
    obtain ⟨hsemi, hne⟩ := href.closed
    have hname : (name ++ ';' :: rest).takeWhile (· != ';') = name := by
      rw [List.takeWhile_append_of_pos fun x hx => by
        simpa using fun h : x = ';' => hsemi (h ▸ hx)]
      simp
    have hpos := Text.bytes_pos hne
    simp [read?, hname, hshort, hpos, lookup?_eq_some_iff.2 href]

lemma Begins.unique {cs name name' rest rest' : List Char} {c c' : Char}
    (h : Begins plusSigned cs name c rest) (h' : Begins plusSigned cs name' c' rest') :
    name = name' ∧ c = c' := by
  obtain ⟨rfl, hshort, href⟩ := h
  have hread := read?_eq_some_iff.2 ⟨name, rest, ⟨rfl, hshort, href⟩, rfl⟩
  have heq := (List.cons.inj h'.eq).2
  rw [heq] at hread
  have hread' := read?_eq_some_iff.2 ⟨name', rest', ⟨rfl, h'.short, h'.reference⟩, rfl⟩
  obtain ⟨rfl, hlen⟩ := Prod.mk.inj (Option.some.inj (hread.symm.trans hread'))
  exact ⟨(List.append_inj heq (by omega)).1, rfl⟩

/-! ### Decoding -/

lemma Begins.decode {cs name rest : List Char} {c : Char} (h : Begins plusSigned cs name c rest) :
    decode cs = c :: decode rest := by
  have hread := read?_eq_some_iff.2 ⟨name, rest, h.eq ▸ h, rfl⟩
  rw [h.eq, decode.eq_2, if_pos (by rfl), hread]
  simp

lemma decode_kept {c : Char} {rest : List Char}
    (h : ∀ name d after, ¬ Begins plusSigned (c :: rest) name d after) :
    decode (c :: rest) = c :: decode rest := by
  rw [decode.eq_2]
  split
  · next hamp =>
    obtain rfl : c = '&' := by simpa using hamp
    cases hread : read? rest with
    | none => rfl
    | some p =>
      obtain ⟨name, after, hbegins, -⟩ := read?_eq_some_iff.1 hread
      exact (h _ _ _ hbegins).elim
  · rfl

lemma decodes_iff {cs out : List Char} : Decodes plusSigned cs out ↔ out = decode cs := by
  constructor
  · intro h
    induction h with
    | nil => simp [decode]
    | reference h _ ih => rw [h.decode, ih]
    | kept h _ ih => rw [decode_kept h, ih]
  · rintro rfl
    induction hk : cs.length using Nat.strongRecOn generalizing cs with
    | ind k ih =>
      by_cases hbegins : ∃ name c rest, Begins plusSigned cs name c rest
      · obtain ⟨name, c, rest, h⟩ := hbegins
        rw [h.decode]
        refine .reference h (ih rest.length ?_ rfl)
        rw [← hk, h.eq]
        simp
        omega
      · cases cs with
        | nil =>
          rw [decode.eq_1]
          exact .nil
        | cons c cs =>
          have hnone : ∀ name d after, ¬ Begins plusSigned (c :: cs) name d after :=
            fun name d after h => hbegins ⟨name, d, after, h⟩
          rw [decode_kept hnone]
          exact .kept hnone (ih cs.length (by simp [← hk]) rfl)

/-! ### Signs -/

/-- A text with a sign behind what introduces a number. -/
def Signed (cs : List Char) : Prop := ∃ start ∈ ["&#+", "&#x+", "&#X+"], start.toList <:+: cs

lemma Begins.toPlusSigned {cs name rest : List Char} {c : Char}
    (h : Begins unsigned cs name c rest) : Begins plusSigned cs name c rest := by
  have hsub {sign : List Char} (hsign : sign ∈ unsigned) : sign ∈ plusSigned :=
    List.mem_cons.2 (.inl (List.mem_singleton.1 hsign))
  refine ⟨h.eq, h.short, ?_⟩
  cases h.reference with
  | named h => exact .named h
  | decimal hsign h => exact .decimal (hsub hsign) h
  | hexadecimal hx hsign h => exact .hexadecimal hx (hsub hsign) h

lemma Begins.toUnsigned {cs name rest : List Char} {c : Char} (hcs : ¬ Signed cs)
    (h : Begins plusSigned cs name c rest) : Begins unsigned cs name c rest := by
  obtain ⟨rfl, hshort, href⟩ := h
  refine ⟨rfl, hshort, ?_⟩
  cases href with
  | named h => exact .named h
  | @decimal sign digits _ hsign hn =>
    rcases List.mem_pair.1 hsign with rfl | rfl
    · exact .decimal (List.mem_singleton.2 rfl) hn
    · exact (hcs ⟨"&#+", by simp, [], digits ++ ';' :: rest, by simp⟩).elim
  | @hexadecimal x sign digits _ hx hsign hn =>
    rcases List.mem_pair.1 hsign with rfl | rfl
    · exact .hexadecimal hx (List.mem_singleton.2 rfl) hn
    · rcases hx with rfl | rfl
      · exact (hcs ⟨"&#x+", by simp, [], digits ++ ';' :: rest, by simp⟩).elim
      · exact (hcs ⟨"&#X+", by simp, [], digits ++ ';' :: rest, by simp⟩).elim

lemma Begins.suffix {signs : List (List Char)} {cs name rest : List Char} {c : Char}
    (h : Begins signs cs name c rest) : rest <:+ cs :=
  ⟨'&' :: (name ++ [';']), by rw [h.eq]; simp⟩

/-- Where the same references begin, the same text is left. -/
lemma Decodes.congr {signs signs' : List (List Char)} {cs out : List Char}
    (hsigns : ∀ tail, tail <:+ cs → ∀ name c rest,
      (Begins signs tail name c rest ↔ Begins signs' tail name c rest))
    (h : Decodes signs cs out) : Decodes signs' cs out := by
  induction h with
  | nil => exact .nil
  | @reference cs name rest out c h _ ih =>
    exact .reference ((hsigns cs (List.suffix_refl cs) ..).1 h)
      (ih fun tail htail => hsigns tail (htail.trans h.suffix))
  | @kept c rest out h _ ih =>
    refine .kept (fun name d after hb => h name d after ?_)
      (ih fun tail htail => hsigns tail (htail.trans (List.suffix_cons c rest)))
    exact (hsigns _ (List.suffix_refl _) ..).2 hb

lemma decodes_unsigned_iff {cs out : List Char} (h : ¬ Signed cs) :
    Decodes unsigned cs out ↔ Decodes plusSigned cs out := by
  have hsigns (tail : List Char) (htail : tail <:+ cs) (name : List Char) (c : Char)
      (rest : List Char) :
      Begins unsigned tail name c rest ↔ Begins plusSigned tail name c rest :=
    ⟨.toPlusSigned, .toUnsigned fun ⟨start, hstart, hinfix⟩ =>
      h ⟨start, hstart, hinfix.trans htail.isInfix⟩⟩
  exact ⟨.congr hsigns, .congr fun tail htail name c rest => (hsigns tail htail name c rest).symm⟩

/-- **Decoding replaces the references of a text from left to right and keeps all else.** The digits
of a number may follow a plus sign; in a text without one there, they stand alone. -/
theorem decode_replaces (cs : List Char) :
    (∀ out, Decodes plusSigned cs out ↔ out = decode cs) ∧
      (¬ Signed cs → ∀ out, Decodes unsigned cs out ↔ out = decode cs) :=
  ⟨fun _ => decodes_iff, fun h _ => (decodes_unsigned_iff h).trans decodes_iff⟩

/-- An ampersand that begins no reference is kept, and the reference behind it is replaced. -/
theorem ampersandBeforeReference_replaced :
    ¬ Signed "a & b&lt;&#65;&#x42;".toList ∧
      Decodes unsigned "a & b&lt;&#65;&#x42;".toList "a & b<AB".toList := by
  have hsigned : ¬ Signed "a & b&lt;&#65;&#x42;".toList := by
    unfold Signed
    decide
  refine ⟨hsigned, ((decode_replaces _).2 hsigned _).2 ?_⟩
  decide +kernel

/-- A plus sign in front of the digits is read over, though no reference of digits alone begins
there. -/
theorem plusSign_replaced :
    ¬ Decodes unsigned "&#+65;".toList (decode "&#+65;".toList) := by
  have hdecode : decode "&#+65;".toList = ['A'] := by decide +kernel
  have hsigned : Begins plusSigned "&#+65;".toList ['#', '+', '6', '5'] 'A' [] := by
    have hsign : ['+'] ∈ plusSigned := by simp [plusSigned]
    have hdigits : Numeral 10 ['6', '5'] ('A').toNat :=
      (digits?_eq_some_iff (by decide)).1 (by decide)
    exact ⟨rfl, by decide, .decimal hsign hdigits⟩
  have hnone (name rest : List Char) (c : Char) :
      ¬ Begins unsigned "&#+65;".toList name c rest := by
    intro h
    obtain ⟨hname, -⟩ := hsigned.unique h.toPlusSigned
    have href := h.reference
    generalize name = cs at hname href
    cases href with
    | named h =>
      have hall : ∀ p ∈ named, p.1.toList ≠ ['#', '+', '6', '5'] := by decide
      exact hall _ h hname.symm
    | @decimal sign digits _ hsign hn =>
      obtain rfl := List.mem_singleton.1 hsign
      obtain rfl : digits = ['+', '6', '5'] := (List.cons.inj hname).2.symm
      have := hn.ne (by decide) '+' (by simp)
      simp at this
    | hexadecimal hx =>
      obtain rfl := (List.cons.inj (List.cons.inj hname).2).1
      simp at hx
  rw [hdecode]
  intro h
  cases h with
  | reference h _ => exact hnone _ _ _ h

end EstreeLint.Estree.Entity
