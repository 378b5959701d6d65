import EstreeLint.Estree.Token
import EstreeLint.Proofs.Text.Split

/-!
Kinds by their numbers, and the stream of tokens of a file.

A class of kinds is a row of numbers, so what two classes have in common is seen at their ends. The
tokens of a file come in the order of the text, and a regular expression is taken apart at its last
slash.
-/

namespace EstreeLint

/-- In a listing by numbers, a thing stands at its number only. -/
lemma getElem?_iff_of_numbered {α : Type} {as : List α} {number : α → Nat}
    (hall : as.map number = List.range as.length) (hat : ∀ a, as[number a]? = some a) {n : Nat}
    {a : α} : as[n]? = some a ↔ number a = n := by
  constructor
  · intro h
    have hnumber : (as.map number)[n]? = some (number a) := by
      rw [List.getElem?_map, h, Option.map_some]
    rw [hall] at hnumber
    obtain ⟨hlt, hnumber⟩ := List.getElem?_eq_some_iff.1 hnumber
    rw [← hnumber, List.getElem_range]
  · rintro rfl
    exact hat a

namespace TokenKind

variable {k : TokenKind} {n : Nat}

/-! ### Numbers -/

lemma map_number_all : all.map number = List.range all.length := by decide +kernel

lemma getElem?_number (k : TokenKind) : all[k.number]? = some k := by
  cases k <;> rfl

/-- A kind is read back from its number, and from no other number. -/
theorem ofNumber?_eq_some_iff : ofNumber? n = some k ↔ k.number = n :=
  getElem?_iff_of_numbered map_number_all getElem?_number

lemma number_lt_length (k : TokenKind) : k.number < all.length :=
  (List.getElem?_eq_some_iff.1 (getElem?_number k)).1

/-! ### Classes -/

lemma within_iff {first last : TokenKind} :
    within first last k = true ↔ first.number ≤ k.number ∧ k.number ≤ last.number := by
  rw [within, Bool.and_eq_true, decide_eq_true_eq, decide_eq_true_eq]

lemma number_withKw : withKw.number + 1 = implementsKw.number := rfl

lemma number_yieldKw : yieldKw.number + 1 = abstractKw.number := rfl

/-- **Keywords** are reserved always, in strict code, or where the context says so. -/
theorem isKeyword_iff : k.isKeyword = true ↔ k.isReservedWord = true ∨
    k.isFutureReservedWord = true ∨ k.isContextualKeyword = true := by
  have hbreak : breakKw.number ≤ withKw.number := by decide
  have himplements : implementsKw.number ≤ yieldKw.number := by decide
  have habstract : abstractKw.number ≤ ofKw.number := by decide
  have hwith := number_withKw
  have hyield := number_yieldKw
  simp only [isKeyword, isReservedWord, isFutureReservedWord, isContextualKeyword, within_iff]
  omega

/-- A keyword is of one of the three classes only. -/
theorem keyword_classes_disjoint :
    (k.isReservedWord && k.isFutureReservedWord) = false ∧
      (k.isReservedWord && k.isContextualKeyword) = false ∧
        (k.isFutureReservedWord && k.isContextualKeyword) = false := by
  have himplements : implementsKw.number ≤ yieldKw.number := by decide
  have hwith := number_withKw
  have hyield := number_yieldKw
  simp only [← Bool.not_eq_true, Bool.and_eq_true, isReservedWord, isFutureReservedWord,
    isContextualKeyword, within_iff]
  omega

/-- A literal is no keyword, no punctuation and no trivia. -/
theorem not_of_isLiteral (h : k.isLiteral = true) :
    k.isKeyword = false ∧ k.isPunctuation = false ∧ k.isTrivia = false := by
  have htrivia : nonTextFileMarkerTrivia.number < numericLiteral.number := by decide
  have hpunctuation : noSubstitutionTemplateLiteral.number < openBrace.number := by decide
  have hkeyword : noSubstitutionTemplateLiteral.number < breakKw.number := by decide
  simp only [← Bool.not_eq_true, isLiteral, isKeyword, isPunctuation, isTrivia,
    within_iff] at h ⊢
  omega

/-- What turns a parameter into a property is a modifier. -/
theorem isModifier_of_parameterProperty (h : Grammar.isParameterPropertyModifier k = true) :
    k.isModifier = true := by
  rw [Grammar.isParameterPropertyModifier, List.contains_iff_mem] at h
  rw [isModifier, List.contains_iff_mem]
  revert k
  decide

end TokenKind

namespace Form

lemma map_number_all : all.map number = List.range all.length := by decide +kernel

lemma getElem?_number (f : Form) : all[f.number]? = some f := by
  cases f <;> rfl

lemma getElem?_all_iff {f : Form} {n : Nat} : all[n]? = some f ↔ f.number = n :=
  getElem?_iff_of_numbered map_number_all getElem?_number

end Form

namespace NodeKind

/-- The place of a kind of node: forms stand behind the tokens. -/
def number : NodeKind → Nat
  | .token k => k.number
  | .form f => TokenKind.all.length + f.number

/-- **A kind of node is read back from its number**, and from no other number. -/
theorem ofNumber?_eq_some_iff {k : NodeKind} {n : Nat} : ofNumber? n = some k ↔ k.number = n := by
  rw [ofNumber?]
  cases htoken : TokenKind.ofNumber? n with
  | some t =>
    have ht := TokenKind.ofNumber?_eq_some_iff.1 htoken
    have hlt := t.number_lt_length
    cases k with
    | token k =>
      simp only [Option.some.injEq, NodeKind.token.injEq, number]
      rw [← TokenKind.ofNumber?_eq_some_iff, htoken, Option.some.injEq]
    | form f =>
      simp only [Option.some.injEq, reduceCtorEq, number, false_iff]
      omega
  | none =>
    have hlt : TokenKind.all.length ≤ n := by
      rwa [TokenKind.ofNumber?, List.getElem?_eq_none_iff] at htoken
    cases k with
    | token k =>
      have hk := k.number_lt_length
      simp only [Option.map_eq_some_iff, reduceCtorEq, and_false, exists_false, number, false_iff]
      omega
    | form f =>
      simp only [Option.map_eq_some_iff, NodeKind.form.injEq, exists_eq_right,
        Form.getElem?_all_iff, number]
      omega

/-- The name shown for the number of a kind is the name of the kind. -/
theorem nameOfNumber_number (k : NodeKind) : nameOfNumber k.number = k.name := by
  rw [nameOfNumber, ofNumber?_eq_some_iff.2 rfl]
  rfl

end NodeKind

end EstreeLint

namespace EstreeLint.Estree

variable {r : Span} {ts : List Token} {t : Token}

/-! ### The order of the stream -/

lemma withoutRepeatsOf_sublist (r : Span) (ts : List Token) :
    (withoutRepeatsOf r ts).Sublist ts := by
  induction ts generalizing r with
  | nil => exact .slnil
  | cons t ts ih =>
    rw [withoutRepeatsOf]
    split
    · exact (ih r).cons t
    · exact (ih t.range).cons_cons t

lemma withoutRepeatsOf_isChain (r : Span) (ts : List Token) :
    (r :: (withoutRepeatsOf r ts).map (·.range)).IsChain (· ≠ ·) := by
  induction ts generalizing r with
  | nil => exact .singleton r
  | cons t ts ih =>
    rw [withoutRepeatsOf]
    split
    · exact ih r
    · next hne => exact .cons_cons (Ne.symm hne) (ih t.range)

lemma withoutRepeats_sublist (ts : List Token) : (withoutRepeats ts).Sublist ts := by
  cases ts with
  | nil => exact .slnil
  | cons t ts => exact (withoutRepeatsOf_sublist _ ts).cons_cons t

lemma withoutRepeats_isChain (ts : List Token) :
    ((withoutRepeats ts).map (·.range)).IsChain (· ≠ ·) := by
  cases ts with
  | nil => exact .nil
  | cons t ts => exact withoutRepeatsOf_isChain t.range ts

/-- **The tokens of a file stand in the order of their starts**, and none has the range of the one
before it. -/
theorem tokensOfFile_ordered (file : SourceFile) :
    (tokensOfFile file).Pairwise (fun t u => t.range.start ≤ u.range.start) ∧
      ((tokensOfFile file).map (·.range)).IsChain (· ≠ ·) := by
  rw [tokensOfFile]
  refine ⟨.sublist (withoutRepeats_sublist _) ?_, withoutRepeats_isChain _⟩
  have hsorted := @List.pairwise_mergeSort Token (fun t u => t.range.start ≤ u.range.start)
    (fun _ _ _ htu huv => by simp only [decide_eq_true_eq] at *; omega)
    (fun _ _ => by simp only [Bool.or_eq_true, decide_eq_true_eq]; omega)
  simpa only [decide_eq_true_eq] using hsorted _

/-! ### Regular expressions -/

lemma splitRegex_eq {pattern flags : List Char} (h : '/' ∉ flags) :
    splitRegex ('/' :: pattern ++ '/' :: flags) =
      (String.ofList pattern, String.ofList flags) := by
  have hlt : flags.length < (pattern ++ '/' :: flags).length := by
    rw [List.length_append, List.length_cons]
    omega
  have hcut : (pattern ++ '/' :: flags).length - flags.length - 1 = pattern.length := by
    rw [List.length_append, List.length_cons]
    omega
  simp only [splitRegex, List.cons_append, List.head?_cons, beq_self_eq_true, if_true,
    List.drop_succ_cons, List.drop_zero, Text.takeWhile_reverse h, List.reverse_reverse,
    if_pos hlt, hcut, List.take_left]

/-- **A regular expression** is a pattern between slashes, with flags behind it. -/
theorem Token.regex?_eq {source : Source} {pattern flags : List Char}
    (htype : t.type = .regularExpression) (hflags : '/' ∉ flags)
    (hslice : (t.range.slice source).toList = '/' :: pattern ++ '/' :: flags) :
    t.regex? source = some (String.ofList pattern, String.ofList flags) := by
  rw [regex?, htype, hslice, splitRegex_eq hflags]
  rfl

end EstreeLint.Estree
