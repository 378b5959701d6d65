import EstreeLint.LineMap
import EstreeLint.Proofs.Text.Slice

/-!
Offsets to positions and back.

The way back finds an offset again if it is a *cut*: a boundary that does not part a carriage return
from the line feed behind it. Such an offset stands in a line with no line break before it, and the
columns of that line count the characters one by one.
-/

namespace EstreeLint

namespace Text

variable {text : Source} {p : Nat}

/-- The two runs do not part a line break of two characters between them. -/
def Seam (u v : List Char) : Prop := ¬ (u.getLast? = some '\r' ∧ v.head? = some '\n')

/-- An offset where a text can be cut without parting a line break of two characters. -/
def IsCut (text : Source) (p : Nat) : Prop := ∃ u v, text = u ++ v ∧ p = bytes u ∧ Seam u v

lemma IsCut.isBoundary (h : IsCut text p) : IsBoundary text p := by
  obtain ⟨u, v, htext, hp, -⟩ := h
  exact isBoundary_iff.2 ⟨u, v, htext, hp⟩

lemma isCut_zero (text : Source) : IsCut text 0 := ⟨[], text, rfl, rfl, by simp [Seam]⟩

lemma isCut_bytes (text : Source) : IsCut text (bytes text) :=
  ⟨text, [], by simp, rfl, by simp [Seam]⟩

lemma unit_pos (c : Char) : 0 < unit c := by
  unfold unit
  split <;> omega

lemma units_append (u v : List Char) : units (u ++ v) = units u + units v := by
  induction u with
  | nil => simp [units]
  | cons c u ih => simp only [List.cons_append, units, ih, Nat.add_assoc]

end Text

namespace LineMap

open Text (bytes units isLineBreak IsCut)

variable {text : Source} {p q pos : Nat} {cs : List Char}

/-! ### Where lines start -/

/-- A line starts behind each character that ends one. -/
lemma mem_laterStarts :
    q ∈ laterStarts pos cs ↔
      ∃ u c v, cs = u ++ c :: v ∧ isLineBreak c = true ∧ ¬ (c = '\r' ∧ v.head? = some '\n') ∧
        q = pos + bytes u + c.utf8Size := by
  induction cs generalizing pos with
  | nil => simp [laterStarts]
  | cons d cs ih =>
    have hends : (isLineBreak d && !(d == '\r' && cs.head? == some '\n')) = true ↔
        isLineBreak d = true ∧ ¬ (d = '\r' ∧ cs.head? = some '\n') := by
      rw [Bool.and_eq_true, Bool.not_eq_true', ← Bool.not_eq_true, Bool.and_eq_true, beq_iff_eq,
        beq_iff_eq]
    have hmem : q ∈ laterStarts pos (d :: cs) ↔
        (isLineBreak d = true ∧ ¬ (d = '\r' ∧ cs.head? = some '\n')) ∧ q = pos + d.utf8Size ∨
          q ∈ laterStarts (pos + d.utf8Size) cs := by
      rw [← hends, laterStarts]
      split
      · next h => simp only [h, List.mem_cons, true_and]
      · next h => simp only [h, Bool.false_eq_true, false_and, false_or]
    rw [hmem, ih]
    constructor
    · rintro (⟨⟨hd, hcr⟩, rfl⟩ | ⟨u, c, v, rfl, hc, hcr, rfl⟩)
      · exact ⟨[], d, cs, rfl, hd, hcr, by simp⟩
      · exact ⟨d :: u, c, v, rfl, hc, hcr, by simp [Nat.add_assoc]⟩
    · rintro ⟨u, c, v, htext, hc, hcr, rfl⟩
      cases u with
      | nil =>
        obtain ⟨rfl, rfl⟩ := List.cons.inj htext
        exact .inl ⟨⟨hc, hcr⟩, by simp⟩
      | cons e u =>
        obtain ⟨rfl, rfl⟩ := List.cons.inj htext
        exact .inr ⟨u, c, v, rfl, hc, hcr, by simp [Nat.add_assoc]⟩

lemma laterStarts_pairwise (pos : Nat) (cs : List Char) :
    (laterStarts pos cs).Pairwise (· < ·) ∧ ∀ q ∈ laterStarts pos cs, pos < q := by
  induction cs generalizing pos with
  | nil => simp [laterStarts]
  | cons c cs ih =>
    have hpos := c.utf8Size_pos
    obtain ⟨hpairs, hlater⟩ := ih (pos + c.utf8Size)
    have hall : ∀ q ∈ laterStarts (pos + c.utf8Size) cs, pos < q := fun q hq => by
      have := hlater q hq
      omega
    rw [laterStarts]
    split
    · refine ⟨List.pairwise_cons.2 ⟨hlater, hpairs⟩, fun q hq => ?_⟩
      rcases List.mem_cons.1 hq with rfl | hq
      · omega
      · exact hall q hq
    · exact ⟨hpairs, hall⟩

lemma starts_pairwise (text : Source) : (build text).starts.Pairwise (· < ·) :=
  List.pairwise_cons.2 ⟨(laterStarts_pairwise 0 text).2, (laterStarts_pairwise 0 text).1⟩

/-- Of numbers in order, those up to a bound come first. -/
lemma getElem_le_iff {l : List Nat} (h : l.Pairwise (· < ·)) {i : Nat} (hi : i < l.length) :
    l[i] ≤ p ↔ i < l.countP (· ≤ p) := by
  induction l generalizing i with
  | nil => simp at hi
  | cons a l ih =>
    obtain ⟨ha, hl⟩ := List.pairwise_cons.1 h
    by_cases hap : a ≤ p
    · rw [List.countP_cons_of_pos (by simpa using hap)]
      cases i with
      | zero => simpa using hap
      | succ i =>
        have := ih hl (Nat.lt_of_succ_lt_succ hi)
        simpa using this
    · have hnone : l.countP (· ≤ p) = 0 := by
        refine List.countP_eq_zero.2 fun b hb => ?_
        have := ha b hb
        simp only [decide_eq_true_eq]
        omega
      rw [List.countP_cons_of_neg (by simpa using hap), hnone]
      cases i with
      | zero => simpa using hap
      | succ i =>
        have := ha _ (List.getElem_mem (Nat.lt_of_succ_lt_succ hi))
        simp only [List.getElem_cons_succ, Nat.not_lt_zero, iff_false]
        omega

/-- The line of an offset: it starts at or before the offset, and every later one behind it. -/
lemma lineOf_spec (text : Source) (p : Nat) :
    ∃ start, (build text).lineStart? ((build text).lineOf p) = some start ∧ start ≤ p ∧
      (∀ q ∈ (build text).starts, q ≤ p → q ≤ start) ∧
      ∀ q, (build text).lineStart? ((build text).lineOf p + 1) = some q → p < q := by
  have hpairs := starts_pairwise text
  have hfirst : 0 < (build text).starts.countP (· ≤ p) :=
    List.countP_pos_iff.2 ⟨0, List.mem_cons_self .., by simp⟩
  have hle := List.countP_le_length (p := (· ≤ p)) (l := (build text).starts)
  have hlt : (build text).lineOf p < (build text).starts.length := by
    unfold lineOf
    omega
  refine ⟨_, List.getElem?_eq_getElem hlt, ?_, fun q hq hqp => ?_, fun q hq => ?_⟩
  · rw [getElem_le_iff hpairs hlt]
    unfold lineOf
    omega
  · obtain ⟨i, hi, rfl⟩ := List.getElem_of_mem hq
    rw [getElem_le_iff hpairs hi] at hqp
    rcases Nat.lt_or_ge i ((build text).lineOf p) with h | h
    · exact Nat.le_of_lt (List.pairwise_iff_getElem.1 hpairs i _ hi hlt h)
    · have : i = (build text).lineOf p := by
        unfold lineOf at *
        omega
      simp [this]
  · obtain ⟨hi, rfl⟩ := List.getElem?_eq_some_iff.1 hq
    have := (getElem_le_iff (p := p) hpairs hi).not
    unfold lineOf at *
    omega

/-! ### There and back -/

/-- Line starts are boundaries. -/
lemma isBoundary_of_mem_starts (h : q ∈ (build text).starts) : Text.IsBoundary text q := by
  rcases List.mem_cons.1 h with rfl | h
  · exact Text.isBoundary_zero text
  · obtain ⟨u, c, v, htext, -, -, rfl⟩ := mem_laterStarts.1 h
    exact Text.isBoundary_iff.2
      ⟨u ++ [c], v, by simp [htext], by simp [Text.bytes_append]⟩

/-- No line ends between the start of a line and an offset on it. -/
lemma not_ends {before x y : List Char} {c : Char} (htext : text = before ++ (x ++ c :: y))
    (hc : isLineBreak c = true) (hcr : ¬ (c = '\r' ∧ y.head? = some '\n'))
    (hle : bytes before + bytes x + c.utf8Size ≤ p)
    (hmax : ∀ q ∈ (build text).starts, q ≤ p → q ≤ bytes before) : False := by
  have hpos := c.utf8Size_pos
  have hmem : bytes before + bytes x + c.utf8Size ∈ (build text).starts := by
    refine List.mem_cons_of_mem _ (mem_laterStarts.2 ⟨before ++ x, c, y, ?_, hc, hcr, ?_⟩)
    · rw [htext, List.append_assoc]
    · rw [Text.bytes_append, Nat.zero_add]
  have := hmax _ hmem hle
  omega

/-- From the start of its line to a cut there is no line break. -/
lemma forall_not_isLineBreak {before line v : List Char} (htext : text = before ++ (line ++ v))
    (hcut : ¬ ((before ++ line).getLast? = some '\r' ∧ v.head? = some '\n'))
    (hmax : ∀ q ∈ (build text).starts, q ≤ bytes (before ++ line) → q ≤ bytes before) :
    ∀ c ∈ line, isLineBreak c = false := by
  intro c hc
  by_contra hbreak
  rw [Bool.not_eq_false] at hbreak
  obtain ⟨x, y, rfl⟩ := List.append_of_mem hc
  rw [List.append_assoc, List.cons_append] at htext
  rw [Text.bytes_append, Text.bytes_append, Text.bytes_cons] at hmax
  by_cases hcr : c = '\r' ∧ (y ++ v).head? = some '\n'
  · obtain ⟨rfl, hnl⟩ := hcr
    cases y with
    | nil => exact hcut ⟨by simp, hnl⟩
    | cons d y =>
      -- the line feed ends the line in place of the carriage return
      obtain rfl : d = '\n' := by simpa using hnl
      have hsplit : text = before ++ ((x ++ ['\r']) ++ '\n' :: (y ++ v)) := by simpa using htext
      refine not_ends hsplit (by decide) (fun h => absurd h.1 (by decide)) ?_ hmax
      simp only [Text.bytes_append, Text.bytes_cons, Text.bytes_nil]
      omega
  · refine not_ends htext hbreak hcr ?_ hmax
    omega

lemma columnBytes_append {line w : List Char} (h : ∀ c ∈ line, isLineBreak c = false) :
    columnBytes (line ++ w) (units line) = bytes line := by
  induction line with
  | nil =>
    cases w with
    | nil => rfl
    | cons c w =>
      have hpos := Text.unit_pos c
      simp [columnBytes, units, hpos]
  | cons c line ih =>
    have hc := h c (List.mem_cons_self ..)
    have hlt : ¬ units (c :: line) < Text.unit c := by
      simp only [units]
      omega
    have hsub : units (c :: line) - Text.unit c = units line := by
      simp only [units]
      omega
    rw [List.cons_append, columnBytes, hsub, ih fun d hd => h d (List.mem_cons_of_mem _ hd)]
    simp [hc, hlt]

/-- Where the line behind a line starts, or the end of the text. -/
lemma nextStart_spec {line : Nat} (h : ∀ q, (build text).lineStart? line = some q → p < q)
    (hp : p ≤ bytes text) :
    Text.IsBoundary text (((build text).lineStart? line).getD (bytes text)) ∧
      p ≤ ((build text).lineStart? line).getD (bytes text) := by
  cases hq : (build text).lineStart? line with
  | none => exact ⟨(Text.isCut_bytes text).isBoundary, hp⟩
  | some q => exact ⟨isBoundary_of_mem_starts (List.mem_of_getElem? hq), Nat.le_of_lt (h q hq)⟩

/-- **The position of a cut leads back to it.** -/
theorem offsetOf?_positionOf (h : IsCut text p) :
    (build text).offsetOf? text ((build text).positionOf text p) = some p := by
  obtain ⟨start, hstart, hle, hmax, hnext⟩ := lineOf_spec text p
  obtain ⟨hend, hpast⟩ := nextStart_spec hnext h.isBoundary.le_bytes
  generalize hstop : ((build text).lineStart? ((build text).lineOf p + 1)).getD (bytes text) =
    stop at hend hpast
  have hbefore := isBoundary_of_mem_starts (List.mem_of_getElem? hstart)
  obtain ⟨u, v, htext, rfl, hcut⟩ := h
  -- the text up to the start of the line, up to the offset, and up to the end of the line
  obtain ⟨before, rest, htext', rfl⟩ := Text.isBoundary_iff.1 hbefore
  obtain ⟨line, rfl⟩ := Text.append_of_le (htext'.symm.trans htext) hle
  obtain ⟨w, after, rfl, hw⟩ := Text.exists_cut (htext ▸ hend) hpast
  have hmiddle : text = before ++ (line ++ (w ++ after)) := by rw [htext, List.append_assoc]
  have hlonger : text = before ++ ((line ++ w) ++ after) := by rw [hmiddle, List.append_assoc]
  have hnone := forall_not_isLineBreak hmiddle hcut hmax
  have hbytes : bytes (before ++ line) = bytes before + bytes line := Text.bytes_append ..
  have hcolumn : ((build text).positionOf text (bytes (before ++ line))).character =
      units line := by
    have hstop : min (bytes (before ++ line)) (bytes text) = bytes before + bytes line := by
      rw [hmiddle, hbytes, Text.bytes_append, Text.bytes_append]
      omega
    have hfrom : min (bytes before) (bytes before + bytes line) = bytes before := by omega
    have hslice : Text.slice text (bytes before) (bytes before + bytes line) = line := by
      rw [hmiddle, Text.slice, Text.slice?_append, Option.getD_some]
    simp only [positionOf, hstart, Option.getD_some, hstop, hfrom, hslice]
  have hline : ((build text).positionOf text (bytes (before ++ line))).line =
      (build text).lineOf (bytes (before ++ line)) := rfl
  have hslice : Text.slice text (bytes before) stop = line ++ w := by
    have hsum : bytes (before ++ line) + bytes w = bytes before + bytes (line ++ w) := by
      rw [hbytes, Text.bytes_append, Nat.add_assoc]
    rw [hw, hsum]
    nth_rewrite 1 [hlonger]
    rw [Text.slice, Text.slice?_append, Option.getD_some]
  rw [offsetOf?, hcolumn, hline, hstart, Option.map_some, hstop]
  simp only [hslice, columnBytes_append hnone, hbytes]

end LineMap

end EstreeLint
