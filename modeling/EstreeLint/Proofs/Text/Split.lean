import EstreeLint.Text.Split
import Mathlib.Tactic.Common

/-!
Text cut into pieces, and trimmed.

A cut at one character of the class is a cut of what stands before it and of what stands behind it,
and all that is known of pieces and words follows. White space around a text is of no consequence
once the text is trimmed.
-/

namespace EstreeLint.Text

variable {p : Char → Bool} {c : Char} {u v w : List Char}

/-! ### Pieces -/

lemma split_eq_splitOnP (p : Char → Bool) (cs : List Char) : split p cs = cs.splitOnP p := by
  induction cs with
  | nil => rw [List.splitOnP_nil, split]
  | cons c cs ih =>
    obtain ⟨piece, pieces, h⟩ := List.exists_cons_of_ne_nil (List.splitOnP_ne_nil p cs)
    rw [split, ih, List.splitOnP_cons_eq_if_modifyHead, h, List.modifyHead_cons]

lemma split_ne_nil (p : Char → Bool) (cs : List Char) : split p cs ≠ [] := by
  rw [split_eq_splitOnP]
  exact List.splitOnP_ne_nil p cs

lemma exists_split (p : Char → Bool) (cs : List Char) :
    ∃ piece pieces, split p cs = piece :: pieces :=
  List.exists_cons_of_ne_nil (split_ne_nil p cs)

lemma split_append (hc : p c = true) : split p (u ++ c :: v) = split p u ++ split p v := by
  simp only [split_eq_splitOnP, List.splitOnP_append_cons u v hc]

lemma split_cons (hc : p c = true) : split p (c :: v) = [] :: split p v := split_append (u := []) hc

lemma split_eq_singleton (h : ∀ c ∈ u, p c = false) : split p u = [u] := by
  rw [split_eq_splitOnP, List.splitOnP_eq_singleton h]

lemma split_cons_of_neg (hc : p c = false) {piece : List Char} {pieces : List (List Char)}
    (h : split p u = piece :: pieces) : split p (c :: u) = (c :: piece) :: pieces := by
  simp only [split, h, hc, Bool.false_eq_true, if_false]

/-- The first piece is empty only if nothing stands before the first cut. -/
lemma split_eq_nil_cons {pieces : List (List Char)} (h : split p u = [] :: pieces) :
    u = [] ∨ ∃ c v, u = c :: v ∧ p c = true ∧ pieces = split p v := by
  cases u with
  | nil => exact .inl rfl
  | cons c v =>
    obtain ⟨piece, rest, hv⟩ := exists_split p v
    cases hc : p c with
    | true =>
      rw [split_cons hc] at h
      exact .inr ⟨c, v, rfl, hc, (List.tail_eq_of_cons_eq h).symm⟩
    | false =>
      rw [split_cons_of_neg hc hv] at h
      cases h

lemma not_of_mem_split (h : w ∈ split p u) : ∀ c ∈ w, p c = false := by
  induction u generalizing w with
  | nil =>
    obtain rfl := List.mem_singleton.1 h
    simp
  | cons a u ih =>
    cases ha : p a with
    | true =>
      rw [split_cons ha] at h
      rcases List.mem_cons.1 h with rfl | h
      · simp
      · exact ih h
    | false =>
      obtain ⟨piece, pieces, hu⟩ := exists_split p u
      rw [split_cons_of_neg ha hu] at h
      rcases List.mem_cons.1 h with rfl | h
      · exact List.forall_mem_cons.2 ⟨ha, ih (hu ▸ List.mem_cons_self)⟩
      · exact ih (hu ▸ List.mem_cons_of_mem _ h)

/-- What stands behind the last of a character is what is met before it from the end. -/
lemma takeWhile_reverse (h : c ∉ v) :
    (u ++ c :: v).reverse.takeWhile (· != c) = v.reverse := by
  have hall : ∀ d ∈ v.reverse, (d != c) = true := fun d hd =>
    bne_iff_ne.2 fun heq => h (heq ▸ List.mem_reverse.1 hd)
  rw [List.reverse_append, List.reverse_cons, List.append_assoc, List.takeWhile_append_of_pos hall]
  simp

/-! ### Words -/

/-- Without white space. -/
def Solid (w : List Char) : Prop := ∀ c ∈ w, isWhiteSpace c = false

instance (w : List Char) : Decidable (Solid w) := List.decidableBAll _ w

lemma words_append (hc : isWhiteSpace c = true) : words (u ++ c :: v) = words u ++ words v := by
  rw [words, split_append hc, List.filter_append]
  rfl

lemma words_of_solid (hw : Solid w) (hne : w ≠ []) : words w = [w] := by
  rw [words, split_eq_singleton hw]
  simp [hne]

lemma mem_words (h : w ∈ words u) : Solid w ∧ w ≠ [] := by
  obtain ⟨hmem, hne⟩ := List.mem_filter.1 h
  exact ⟨not_of_mem_split hmem, by simpa using hne⟩

/-- Words with a blank between them are read back. -/
theorem words_intercalate {ws : List (List Char)} (h : ∀ w ∈ ws, Solid w ∧ w ≠ []) :
    words (List.intercalate [' '] ws) = ws := by
  induction ws with
  | nil => rfl
  | cons w ws ih =>
    obtain ⟨⟨hsolid, hne⟩, hrest⟩ := List.forall_mem_cons.1 h
    cases ws with
    | nil => simpa using words_of_solid hsolid hne
    | cons w' ws =>
      rw [List.intercalate_cons_cons, List.append_assoc, List.singleton_append,
        words_append (by decide), ih hrest, words_of_solid hsolid hne, List.singleton_append]

lemma not_isWhiteSpace_of_mem_intercalate {ws : List (List Char)} (h : ∀ w ∈ ws, Solid w)
    (hc : c ∈ List.intercalate [' '] ws) : c = ' ' ∨ isWhiteSpace c = false := by
  induction ws with
  | nil => cases hc
  | cons w ws ih =>
    obtain ⟨hsolid, hrest⟩ := List.forall_mem_cons.1 h
    cases ws with
    | nil => exact .inr (hsolid c (by simpa using hc))
    | cons w' ws =>
      rw [List.intercalate_cons_cons, List.append_assoc] at hc
      rcases List.mem_append.1 hc with hc | hc
      · exact .inr (hsolid c hc)
      rcases List.mem_cons.1 hc with rfl | hc
      · exact .inl rfl
      · exact ih hrest hc

/-! ### Trimmed text -/

/-- A text without white space at its ends is left alone. -/
lemma trim_eq_self (hhead : ∀ c ∈ u.head?, isWhiteSpace c = false)
    (hlast : ∀ c ∈ u.getLast?, isWhiteSpace c = false) : trim u = u := by
  have hdrop {v : List Char} (hv : ∀ c ∈ v.head?, isWhiteSpace c = false) :
      v.dropWhile isWhiteSpace = v := by
    cases v with
    | nil => rfl
    | cons c v => exact List.dropWhile_cons_of_neg (by simp [hv c rfl])
  rw [← List.head?_reverse] at hlast
  rw [trim, hdrop hhead, hdrop hlast, List.reverse_reverse]

lemma trim_of_solid (h : Solid w) : trim w = w :=
  trim_eq_self (fun c hc => h c (List.mem_of_mem_head? hc))
    fun c hc => h c (List.mem_of_mem_getLast? hc)

/-- Words with a blank between them have no white space around them. -/
lemma trim_intercalate {ws : List (List Char)} (h : ∀ w ∈ ws, Solid w ∧ w ≠ []) :
    trim (List.intercalate [' '] ws) = List.intercalate [' '] ws := by
  suffices hends : (∀ c ∈ (List.intercalate [' '] ws).head?, isWhiteSpace c = false) ∧
      ∀ c ∈ (List.intercalate [' '] ws).getLast?, isWhiteSpace c = false from
    trim_eq_self hends.1 hends.2
  induction ws with
  | nil => simp
  | cons w ws ih =>
    obtain ⟨⟨hsolid, hne⟩, hrest⟩ := List.forall_mem_cons.1 h
    have hhead : ∀ c ∈ w.head?, isWhiteSpace c = false :=
      fun c hc => hsolid c (List.mem_of_mem_head? hc)
    cases ws with
    | nil =>
      rw [List.intercalate_singleton]
      exact ⟨hhead, fun c hc => hsolid c (List.mem_of_mem_getLast? hc)⟩
    | cons w' ws =>
      obtain ⟨-, hlast⟩ := ih hrest
      have hrest' : List.intercalate [' '] (w' :: ws) ≠ [] := by
        intro hnil
        have hwords := words_intercalate hrest
        rw [hnil] at hwords
        cases hwords
      rw [List.intercalate_cons_cons, List.append_assoc]
      refine ⟨fun c hc => hhead c ?_, fun c hc => hlast c ?_⟩
      · rwa [List.head?_append, List.head?_eq_some_head hne, Option.some_or,
          ← List.head?_eq_some_head hne] at hc
      · rwa [List.getLast?_append, List.getLast?_append, List.getLast?_eq_some_getLast hrest',
          Option.some_or, Option.some_or, ← List.getLast?_eq_some_getLast hrest'] at hc

/-- White space around a text goes when it is trimmed. -/
theorem trim_pad (hu : ∀ c ∈ u, isWhiteSpace c = true) (hv : ∀ c ∈ v, isWhiteSpace c = true) :
    trim (u ++ w ++ v) = trim w := by
  have hreverse : ∀ c ∈ v.reverse, isWhiteSpace c = true := fun c hc => hv c (List.mem_reverse.1 hc)
  rw [trim, List.append_assoc, List.dropWhile_append_of_pos hu, List.dropWhile_append]
  split
  · next hw =>
    rw [trim, List.isEmpty_iff.1 hw, ← List.append_nil v, List.dropWhile_append_of_pos hv]
    rfl
  · rw [trim, List.reverse_append, List.dropWhile_append_of_pos hreverse]

lemma isWhiteSpace_toLower (c : Char) : isWhiteSpace c.toLower = isWhiteSpace c := by
  by_cases h : 65 ≤ c.toNat ∧ c.toNat ≤ 90
  · have hall : ∀ n < 26, isWhiteSpace (Char.ofNat (65 + n)).toLower =
        isWhiteSpace (Char.ofNat (65 + n)) := by decide
    have hletter := hall (c.toNat - 65) (by omega)
    rwa [Nat.add_sub_cancel' h.1, Char.ofNat_toNat] at hletter
  · have hsame : c.toLower = c := dif_neg h
    rw [hsame]

/-- A word that is known in lower case is read in any case, with white space around it. -/
theorem lowered_trim_pad (hu : ∀ c ∈ u, isWhiteSpace c = true)
    (hv : ∀ c ∈ v, isWhiteSpace c = true) (hw : Solid (lowered w)) :
    lowered (trim (u ++ w ++ v)) = lowered w := by
  have hsolid : Solid w := fun c hc => by
    rw [← isWhiteSpace_toLower]
    exact hw _ (List.mem_map_of_mem hc)
  rw [trim_pad hu hv, trim_of_solid hsolid]

end EstreeLint.Text
