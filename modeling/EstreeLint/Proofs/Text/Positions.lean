import EstreeLint.Proofs.Text.Lines

/-!
The order of positions.

Offsets lead to positions in order. A position on a line that exists leads back to the boundary of
that line which comes closest to its column from below.
-/

namespace EstreeLint

namespace Text

variable {text : Source} {p q r : Nat}

/-! ### Slices that meet -/

lemma slice_append_slice (hp : IsBoundary text p) (hq : IsBoundary text q) (hr : IsBoundary text r)
    (hpq : p ≤ q) (hqr : q ≤ r) : slice text p q ++ slice text q r = slice text p r := by
  obtain ⟨u, v, rfl, rfl⟩ := isBoundary_iff.1 hp
  obtain ⟨w, v, rfl, rfl⟩ := exists_cut hq hpq
  rw [← List.append_assoc] at hr ⊢
  rw [← bytes_append] at hqr ⊢
  obtain ⟨x, v, rfl, rfl⟩ := exists_cut hr hqr
  have hleft : slice (u ++ w ++ (x ++ v)) (bytes u) (bytes (u ++ w)) = w := by
    rw [List.append_assoc, bytes_append, slice, slice?_append, Option.getD_some]
  have hright : slice (u ++ w ++ (x ++ v)) (bytes (u ++ w)) (bytes (u ++ w) + bytes x) = x := by
    rw [slice, slice?_append, Option.getD_some]
  have hwhole : slice (u ++ w ++ (x ++ v)) (bytes u) (bytes (u ++ w) + bytes x) = w ++ x := by
    rw [bytes_append, Nat.add_assoc, ← bytes_append w x, List.append_assoc,
      ← List.append_assoc w x v, slice, slice?_append, Option.getD_some]
  rw [hleft, hright, hwhole]

lemma bytes_slice (hp : IsBoundary text p) (hq : IsBoundary text q) (hpq : p ≤ q) :
    p + bytes (slice text p q) = q := by
  obtain ⟨u, v, rfl, rfl⟩ := isBoundary_iff.1 hp
  obtain ⟨w, v, rfl, rfl⟩ := exists_cut hq hpq
  rw [slice, slice?_append, Option.getD_some]

lemma slice_ne_nil (hp : IsBoundary text p) (hq : IsBoundary text q) (hpq : p < q) :
    slice text p q ≠ [] := by
  intro hnil
  have hbytes := bytes_slice hp hq (Nat.le_of_lt hpq)
  rw [hnil, bytes_nil] at hbytes
  omega

end Text

/-- Positions in reading order: by line, and on one line by column. -/
def Position.Before (x y : Position) : Prop :=
  x.line < y.line ∨ x.line = y.line ∧ x.character < y.character

namespace LineMap

open Text (bytes units isLineBreak IsBoundary IsCut)

variable {text : Source} {p q line start next : Nat}

/-- A boundary on a line: no line break stands between the start of the line and it. -/
def OnLine (text : Source) (line p : Nat) : Prop :=
  IsBoundary text p ∧ ∃ start, (build text).lineStart? line = some start ∧ start ≤ p ∧
    ∀ c ∈ Text.slice text start p, isLineBreak c = false

lemma isBoundary_lineStart (h : (build text).lineStart? line = some start) :
    IsBoundary text start :=
  isBoundary_of_mem_starts (List.mem_of_getElem? h)

/-! ### The line of an offset -/

/-- The lines up to the line of an offset are those that start at or before it. -/
lemma le_lineOf_iff :
    line ≤ (build text).lineOf p ↔
      ∃ start, (build text).lineStart? line = some start ∧ start ≤ p := by
  have hpairs := starts_pairwise text
  have hfirst : 0 < (build text).starts.countP (· ≤ p) :=
    List.countP_pos_iff.2 ⟨0, List.mem_cons_self .., by simp⟩
  have hle := List.countP_le_length (p := (· ≤ p)) (l := (build text).starts)
  have hcount : line ≤ (build text).lineOf p ↔ line < (build text).starts.countP (· ≤ p) := by
    unfold lineOf
    omega
  rw [hcount]
  constructor
  · intro h
    have hline : line < (build text).starts.length := by omega
    exact ⟨_, List.getElem?_eq_getElem hline, (getElem_le_iff hpairs hline).2 h⟩
  · rintro ⟨start, hstart, hp⟩
    obtain ⟨hline, rfl⟩ := List.getElem?_eq_some_iff.1 hstart
    exact (getElem_le_iff hpairs hline).1 hp

lemma lineOf_mono (h : p ≤ q) : (build text).lineOf p ≤ (build text).lineOf q := by
  obtain ⟨start, hstart, hle⟩ := le_lineOf_iff.1 (Nat.le_refl ((build text).lineOf p))
  exact le_lineOf_iff.2 ⟨start, hstart, Nat.le_trans hle h⟩

/-- A line with another behind it has a line break. -/
lemma exists_isLineBreak (hstart : (build text).lineStart? line = some start)
    (hnext : (build text).lineStart? (line + 1) = some next) :
    start < next ∧ ∃ c ∈ Text.slice text start next, isLineBreak c = true := by
  have hlt : start < next := by
    obtain ⟨hi, rfl⟩ := List.getElem?_eq_some_iff.1 hstart
    obtain ⟨hj, rfl⟩ := List.getElem?_eq_some_iff.1 hnext
    exact List.pairwise_iff_getElem.1 (starts_pairwise text) _ _ hi hj (Nat.lt_succ_self line)
  refine ⟨hlt, ?_⟩
  have hlater : next ∈ laterStarts 0 text := by
    rcases List.mem_cons.1 (List.mem_of_getElem? hnext) with rfl | h
    · omega
    · exact h
  obtain ⟨u, c, v, htext, hbreak, -, hend⟩ := mem_laterStarts.1 hlater
  have hwhole : IsBoundary text (bytes (u ++ [c])) :=
    Text.isBoundary_iff.2 ⟨u ++ [c], v, by simp [htext], rfl⟩
  have hbytes : next = bytes (u ++ [c]) := by
    rw [hend, Text.bytes_append, Text.bytes_cons, Text.bytes_nil]
    omega
  -- the text between the two starts is not empty, so its last character is the `c` before `next`
  obtain ⟨before, rest, htext', rfl⟩ := Text.isBoundary_iff.1 (isBoundary_lineStart hstart)
  have hboth : before ++ rest = (u ++ [c]) ++ v := by rw [← htext', htext]; simp
  obtain ⟨w, hw⟩ := Text.append_of_le hboth (by omega)
  have hslice : Text.slice text (bytes before) next = w := by
    have hsplit : u ++ c :: v = before ++ (w ++ v) := by
      rw [← List.append_assoc, ← hw]
      simp
    rw [hbytes, htext, hsplit, hw, Text.bytes_append, Text.slice, Text.slice?_append,
      Option.getD_some]
  rw [hslice]
  rcases List.eq_nil_or_concat w with rfl | ⟨w', d, rfl⟩
  · rw [List.append_nil] at hw
    rw [hbytes, hw] at hlt
    omega
  · have hlast := congrArg List.getLast? hw
    obtain rfl : c = d := by simpa [← List.append_assoc] using hlast
    exact ⟨c, by simp, hbreak⟩

/-- A boundary on a line has that line for its own. -/
lemma OnLine.lineOf (h : OnLine text line p) : (build text).lineOf p = line := by
  obtain ⟨hp, start, hstart, hle, hnone⟩ := h
  refine Nat.le_antisymm (Nat.le_of_not_lt fun hlt => ?_) (le_lineOf_iff.2 ⟨start, hstart, hle⟩)
  obtain ⟨next, hnext, hnextle⟩ := le_lineOf_iff.1 (Nat.succ_le_of_lt hlt)
  obtain ⟨hlt, c, hc, hbreak⟩ := exists_isLineBreak hstart hnext
  have hslice := Text.slice_append_slice (isBoundary_lineStart hstart)
    (isBoundary_lineStart hnext) hp (Nat.le_of_lt hlt) hnextle
  have := hnone c (by rw [← hslice]; exact List.mem_append_left _ hc)
  rw [hbreak] at this
  cases this

/-! ### Columns -/

/-- The column of a boundary counts what stands between the start of its line and it. -/
lemma positionOf_character (hp : IsBoundary text p)
    (hstart : (build text).lineStart? ((build text).lineOf p) = some start) (hle : start ≤ p) :
    ((build text).positionOf text p).character = units (Text.slice text start p) := by
  have hend : min p (bytes text) = p := Nat.min_eq_left hp.le_bytes
  have hfrom : min start p = start := Nat.min_eq_left hle
  simp only [positionOf, hstart, Option.getD_some, hend, hfrom]

lemma units_pos {cs : List Char} (h : cs ≠ []) : 0 < units cs := by
  obtain ⟨c, cs, rfl⟩ := List.exists_cons_of_ne_nil h
  have := Text.unit_pos c
  simp only [units]
  omega

/-- **Positions are in the order of the boundaries.** -/
theorem positionOf_before (hp : IsBoundary text p) (hq : IsBoundary text q) (h : p < q) :
    ((build text).positionOf text p).Before ((build text).positionOf text q) := by
  have hmono : (build text).lineOf p ≤ (build text).lineOf q := lineOf_mono (Nat.le_of_lt h)
  rcases Nat.lt_or_eq_of_le hmono with hline | hline
  · exact .inl hline
  · obtain ⟨start, hstart, hle, -⟩ := lineOf_spec text p
    have hstart' : (build text).lineStart? ((build text).lineOf q) = some start := hline ▸ hstart
    refine .inr ⟨hline, ?_⟩
    rw [positionOf_character hp hstart hle, positionOf_character hq hstart' (by omega),
      ← Text.slice_append_slice (isBoundary_lineStart hstart) hp hq hle (Nat.le_of_lt h),
      Text.units_append]
    have := units_pos (Text.slice_ne_nil hp hq h)
    omega

/-- Columns are counted up to a line break, or while the next character still fits. -/
lemma columnBytes_spec (cs : List Char) (column : Nat) :
    ∃ u v, cs = u ++ v ∧ columnBytes cs column = bytes u ∧ (∀ c ∈ u, isLineBreak c = false) ∧
      units u ≤ column ∧
      ∀ c w, v = c :: w → isLineBreak c = false → column < units u + Text.unit c := by
  induction cs generalizing column with
  | nil => exact ⟨[], [], rfl, rfl, by simp, Nat.zero_le _, by simp⟩
  | cons c cs ih =>
    rw [columnBytes]
    split
    · next hstop =>
      refine ⟨[], c :: cs, rfl, rfl, by simp, Nat.zero_le _, ?_⟩
      rintro d w heq hd
      obtain ⟨rfl, rfl⟩ := List.cons.inj heq
      simpa [hd, units] using hstop
    · next hgo =>
      simp only [Bool.or_eq_true, decide_eq_true_eq, not_or, Nat.not_lt, Bool.not_eq_true] at hgo
      obtain ⟨u, v, rfl, hbytes, hnone, hfits, hnext⟩ := ih (column - Text.unit c)
      refine ⟨c :: u, v, rfl, by rw [hbytes, Text.bytes_cons], ?_, ?_, fun d w hv hd => ?_⟩
      · exact List.forall_mem_cons.2 ⟨hgo.1, hnone⟩
      · simp only [units]
        omega
      · have := hnext d w hv hd
        simp only [units]
        omega

/-! ### From positions to offsets -/

/-- Where a line stops is a boundary, and no boundary on the line stands behind it. -/
lemma lineStop_spec (hstart : (build text).lineStart? line = some start) :
    let stop := ((build text).lineStart? (line + 1)).getD (bytes text)
    IsBoundary text stop ∧ start ≤ stop ∧ ∀ q, OnLine text line q → q ≤ stop := by
  cases hnext : (build text).lineStart? (line + 1) with
  | none =>
    exact ⟨(Text.isCut_bytes text).isBoundary, (isBoundary_lineStart hstart).le_bytes,
      fun q hq => hq.1.le_bytes⟩
  | some next =>
    refine ⟨isBoundary_lineStart hnext, Nat.le_of_lt (exists_isLineBreak hstart hnext).1,
      fun q hq => Nat.le_of_not_lt fun hlt => ?_⟩
    have hline := le_lineOf_iff.2 ⟨next, hnext, Nat.le_of_lt hlt⟩
    rw [hq.lineOf] at hline
    omega

/-- The offset of a position cuts its line behind the characters `u` that fit into the column. -/
lemma offsetOf?_spec (x : Position) (h : x.line < (build text).lineCount) :
    ∃ before u v after, text = before ++ (u ++ (v ++ after)) ∧
      (build text).lineStart? x.line = some (bytes before) ∧
      (build text).offsetOf? text x = some (bytes before + bytes u) ∧
      (∀ c ∈ u, isLineBreak c = false) ∧ units u ≤ x.character ∧
      (∀ c w, v = c :: w → isLineBreak c = false → x.character < units u + Text.unit c) ∧
      ∀ q, OnLine text x.line q → q ≤ bytes before + bytes (u ++ v) := by
  have hstart : (build text).lineStart? x.line = some (build text).starts[x.line] :=
    List.getElem?_eq_getElem h
  generalize (build text).starts[x.line] = start at hstart
  obtain ⟨hstop, hle, hlast⟩ := lineStop_spec hstart
  have hoffset : (build text).offsetOf? text x = some (start + columnBytes (Text.slice text start
      (((build text).lineStart? (x.line + 1)).getD (bytes text))) x.character) := by
    rw [offsetOf?, hstart, Option.map_some]
  generalize ((build text).lineStart? (x.line + 1)).getD (bytes text) = stop at *
  obtain ⟨before, rest, htext, rfl⟩ := Text.isBoundary_iff.1 (isBoundary_lineStart hstart)
  obtain ⟨content, after, rfl, rfl⟩ := Text.exists_cut (htext ▸ hstop) hle
  obtain ⟨u, v, rfl, hbytes, hnone, hfits, hnext⟩ := columnBytes_spec content x.character
  have hslice : Text.slice text (bytes before) (bytes before + bytes (u ++ v)) = u ++ v := by
    rw [htext, Text.slice, Text.slice?_append, Option.getD_some]
  rw [hslice, hbytes] at hoffset
  exact ⟨before, u, v, after, by simpa using htext, hstart, hoffset, hnone, hfits, hnext, hlast⟩

lemma OnLine.character (h : OnLine text line p)
    (hstart : (build text).lineStart? line = some start) :
    start ≤ p ∧ ((build text).positionOf text p).character = units (Text.slice text start p) := by
  obtain ⟨start', hstart', hle, -⟩ := h.2
  obtain rfl := Option.some.inj (hstart.symm.trans hstart')
  exact ⟨hle, positionOf_character h.1 (h.lineOf.symm ▸ hstart) hle⟩

lemma OnLine.not_isLineBreak (h : OnLine text line p)
    (hstart : (build text).lineStart? line = some start) :
    ∀ c ∈ Text.slice text start p, isLineBreak c = false := by
  obtain ⟨start', hstart', -, hnone⟩ := h.2
  obtain rfl := Option.some.inj (hstart.symm.trans hstart')
  exact hnone

/-- A boundary on the line of a position whose own column is the greatest on that line up to the
column of the position. -/
structure Closest (text : Source) (x : Position) (p : Nat) : Prop where
  onLine : OnLine text x.line p
  line : ((build text).positionOf text p).line = x.line
  character_le : ((build text).positionOf text p).character ≤ x.character
  greatest : ∀ q, OnLine text x.line q →
    ((build text).positionOf text q).character ≤ x.character →
    ((build text).positionOf text q).character ≤ ((build text).positionOf text p).character

/-- **A position on a line that exists leads to the boundary of that line which comes closest to its
column from below.** -/
theorem offsetOf?_closest (x : Position) (h : x.line < (build text).lineCount) :
    ∃ p, (build text).offsetOf? text x = some p ∧ Closest text x p := by
  obtain ⟨before, u, v, after, htext, hstart, hoffset, hnone, hfits, hnext, hlast⟩ :=
    offsetOf?_spec x h
  have hslice : Text.slice text (bytes before) (bytes before + bytes u) = u := by
    rw [htext, Text.slice, Text.slice?_append, Option.getD_some]
  have hp : IsBoundary text (bytes before + bytes u) :=
    Text.isBoundary_iff.2 ⟨before ++ u, v ++ after, by simp [htext], (Text.bytes_append ..).symm⟩
  have honline : OnLine text x.line (bytes before + bytes u) :=
    ⟨hp, _, hstart, Nat.le_add_right .., by rwa [hslice]⟩
  have hcharacter := (honline.character hstart).2
  rw [hslice] at hcharacter
  refine ⟨_, hoffset, honline, honline.lineOf, hcharacter ▸ hfits, fun q hq hqfits => ?_⟩
  obtain ⟨hle, hqcharacter⟩ := hq.character hstart
  rw [hcharacter]
  rw [hqcharacter] at hqfits ⊢
  by_contra hmore
  rcases Nat.le_total q (bytes before + bytes u) with hqle | hqle
  · have hsplit := Text.slice_append_slice (isBoundary_lineStart hstart) hq.1 hp hle hqle
    rw [hslice] at hsplit
    rw [← hsplit, Text.units_append] at hmore
    omega
  · -- further on the next character stands before the boundary, and it does not fit
    have hrest : text = (before ++ u) ++ (v ++ after) := by simp [htext]
    rw [← Text.bytes_append] at hqle
    obtain ⟨w, x, hw, rfl⟩ := Text.exists_cut (hrest ▸ hq.1) hqle
    have hwhole : Text.slice text (bytes before) (bytes (before ++ u) + bytes w) = u ++ w := by
      rw [hrest, hw, Text.bytes_append, Nat.add_assoc, ← Text.bytes_append, List.append_assoc,
        ← List.append_assoc u, Text.slice, Text.slice?_append, Option.getD_some]
    rw [hwhole, Text.units_append] at hqfits hmore
    obtain ⟨c, w, rfl⟩ := List.exists_cons_of_ne_nil (l := w) (by rintro rfl; simp [units] at hmore)
    cases v with
    | nil =>
      have hpos := c.utf8Size_pos
      have := hlast _ hq
      simp only [Text.bytes_append, Text.bytes_cons, Text.bytes_nil] at this
      omega
    | cons d v =>
      obtain rfl : d = c := (List.cons.inj hw).1
      have hd : isLineBreak d = false := hq.not_isLineBreak hstart d (by rw [hwhole]; simp)
      have := hnext d v rfl hd
      simp only [units] at hqfits
      omega

/-! ### Lines and positions of a text -/

/-- Lines and positions say truly where in a text an offset stands. -/
structure Faithful (text : Source) : Prop where
  first : (build text).starts.head? = some 0
  ascending : (build text).starts.Pairwise (· < ·)
  /-- The line of an offset is the greatest that starts at or before it. -/
  lineOf : ∀ p line, line ≤ (build text).lineOf p ↔
    ∃ start, (build text).lineStart? line = some start ∧ start ≤ p
  /-- Every boundary that does not part a carriage return from its line feed is found again. -/
  roundTrip : ∀ p, IsCut text p →
    (build text).offsetOf? text ((build text).positionOf text p) = some p
  ordered : ∀ p q, IsBoundary text p → IsBoundary text q → p < q →
    ((build text).positionOf text p).Before ((build text).positionOf text q)
  closest : ∀ x : Position, x.line < (build text).lineCount →
    ∃ p, (build text).offsetOf? text x = some p ∧ Closest text x p
  missing : ∀ x : Position, (build text).lineCount ≤ x.line →
    (build text).offsetOf? text x = none

/-- **Offsets and positions lead to each other, in order, whatever the text is.** -/
theorem build_faithful (text : Source) : Faithful text where
  first := rfl
  ascending := starts_pairwise text
  lineOf _ _ := le_lineOf_iff
  roundTrip _ := offsetOf?_positionOf
  ordered _ _ := positionOf_before
  closest := offsetOf?_closest
  missing x h := by
    have hnone : (build text).lineStart? x.line = none := List.getElem?_eq_none h
    rw [offsetOf?, hnone, Option.map_none]

end LineMap

end EstreeLint
