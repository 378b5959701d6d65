import EstreeLint.Lint.Render
import EstreeLint.Proofs.Text.Positions
import Mathlib.Data.List.TakeWhile

/-!
The line that is shown with a diagnostic, and the marks below it.

What is shown begins where the line of the range begins, and goes on to the first line feed or
carriage return. That is the line itself unless U+2028 or U+2029 ends it: these two are shown, with
the lines behind them.
-/

namespace EstreeLint

namespace LineMap

open Text (bytes isLineBreak IsBoundary)

variable {text : Source} {line start next : Nat}

/-- What can end a line, and the end of the text. -/
def terminators : List (List Char) :=
  [[], ['\n'], ['\r'], ['\r', '\n'], ['\u2028'], ['\u2029']]

/-- The content of a line: what stands from its start to the start of the next one, or to the end of
the text, without what ends it. -/
structure IsLine (text : Source) (line start : Nat) (content : List Char) : Prop where
  lineStart? : (build text).lineStart? line = some start
  unbroken : ∀ c ∈ content, isLineBreak c = false
  ended : ∃ terminator ∈ terminators,
    Text.slice text start (((build text).lineStart? (line + 1)).getD (bytes text)) =
      content ++ terminator

lemma isLineBreak_iff (c : Char) :
    isLineBreak c = true ↔ c = '\n' ∨ c = '\r' ∨ c = '\u2028' ∨ c = '\u2029' := by
  simp [isLineBreak, or_assoc]

/-- The line behind a line starts no later than at a line start behind it. -/
lemma exists_next (hstart : (build text).lineStart? line = some start)
    (hnext : next ∈ (build text).starts) (hlt : start < next) :
    ∃ q, (build text).lineStart? (line + 1) = some q ∧ q ≤ next := by
  rw [← le_lineOf_iff]
  by_contra hle
  obtain ⟨s, hs, -, hmax, -⟩ := lineOf_spec text next
  have hline : (build text).lineOf next ≤ line := by omega
  have hsle : s ≤ start := by
    obtain ⟨hi, rfl⟩ := List.getElem?_eq_some_iff.1 hs
    obtain ⟨hj, rfl⟩ := List.getElem?_eq_some_iff.1 hstart
    rcases Nat.lt_or_eq_of_le hline with h | h
    · exact Nat.le_of_lt (List.pairwise_iff_getElem.1 (starts_pairwise text) _ _ hi hj h)
    · simp [h]
  have := hmax next hnext (Nat.le_refl next)
  omega

/-- No line starts between a carriage return and the line feed behind it. -/
lemma not_start_of_pair {u v : List Char} (htext : text = u ++ '\r' :: '\n' :: v) :
    bytes (u ++ ['\r']) ∉ (build text).starts := by
  intro hmem
  rcases List.mem_cons.1 hmem with hzero | hmem
  · exact absurd hzero (Nat.ne_of_gt (Text.bytes_pos (by simp)))
  · obtain ⟨x, c, y, htext', -, hpair, hbytes⟩ := mem_laterStarts.1 hmem
    have heq : (u ++ ['\r']) ++ '\n' :: v = (x ++ [c]) ++ y := by
      rw [← List.append_cons, ← List.append_cons, ← htext, ← htext']
    have hsum : bytes (u ++ ['\r']) = bytes (x ++ [c]) := by
      rw [hbytes, Text.bytes_append x]
      simp
    obtain ⟨w, hw⟩ := Text.append_of_le heq (Nat.le_of_eq hsum)
    have hnil : w = [] := by
      by_contra hne
      have := Text.bytes_pos hne
      rw [hw, Text.bytes_append (u ++ _)] at hsum
      omega
    rw [hnil, List.append_nil] at hw
    obtain ⟨-, hc⟩ := List.append_inj' hw rfl
    rw [hw, List.append_cancel_left_eq] at heq
    exact hpair ⟨(List.cons.inj hc).1, by rw [← heq]; rfl⟩

/-- A run from the start of a line that has no line break in it and stops at one is the line. -/
lemma isLine_of_cut {before content tail : List Char}
    (htext : text = before ++ (content ++ tail))
    (hstart : (build text).lineStart? line = some (bytes before))
    (hcontent : ∀ c ∈ content, isLineBreak c = false)
    (htail : ∀ c ∈ tail.head?, isLineBreak c = true) : IsLine text line (bytes before) content := by
  refine ⟨hstart, hcontent, ?_⟩
  have hslice (w after : List Char) (h : content ++ tail = w ++ after) :
      Text.slice text (bytes before) (bytes before + bytes w) = w := by
    rw [htext, h, Text.slice, Text.slice?_append, Option.getD_some]
  -- the next line starts behind a line break, so not within the run
  have hlonger (q : Nat) (hq : (build text).lineStart? (line + 1) = some q) :
      ∃ c more after, tail = c :: (more ++ after) ∧
        q = bytes before + bytes (content ++ c :: more) := by
    obtain ⟨hlt, c, hc, hbreak⟩ := exists_isLineBreak hstart hq
    obtain ⟨w, after, hw, rfl⟩ := Text.exists_cut
      (htext ▸ isBoundary_of_mem_starts (List.mem_of_getElem? hq)) (Nat.le_of_lt hlt)
    rw [hslice w after hw] at hc
    have hout (x : List Char) (hx : content = w ++ x) : False := by
      have := hcontent c (by rw [hx]; exact List.mem_append_left _ hc)
      rw [hbreak] at this
      cases this
    rcases List.append_eq_append_iff.1 hw with ⟨x, rfl, htail⟩ | ⟨x, hx, -⟩
    · cases x with
      | nil => exact (hout [] (by simp)).elim
      | cons d more => exact ⟨d, more, after, htail, rfl⟩
    · exact (hout x hx).elim
  cases tail with
  | nil =>
    refine ⟨[], by simp [terminators], ?_⟩
    cases hq : (build text).lineStart? (line + 1) with
    | none =>
      have hend : bytes text = bytes before + bytes content := by
        rw [htext, List.append_nil, Text.bytes_append]
      rw [Option.getD_none, hend, hslice content [] rfl, List.append_nil]
    | some q =>
      obtain ⟨c, more, after, hnil, -⟩ := hlonger q hq
      cases hnil
  | cons c tail =>
    -- the next line starts no later than behind the terminator that stands here
    have hnext (u v : List Char) (h : c :: tail = u ++ v) (hne : u ≠ [])
        (hmem : bytes (before ++ (content ++ u)) ∈ (build text).starts) :
        ∃ more rest, tail = more ++ rest ∧ bytes (c :: more) ≤ bytes u ∧
          (build text).lineStart? (line + 1) =
            some (bytes before + bytes (content ++ c :: more)) := by
      have hpos := Text.bytes_pos hne
      obtain ⟨q, hq, hqle⟩ := exists_next hstart hmem (by simp [Text.bytes_append]; omega)
      obtain ⟨d, more, rest, heq, rfl⟩ := hlonger q hq
      obtain ⟨rfl, rfl⟩ := List.cons.inj heq
      simp only [Text.bytes_append] at hqle
      exact ⟨more, rest, rfl, by omega, hq⟩
    have hended (more rest : List Char) (h : tail = more ++ rest)
        (hq : (build text).lineStart? (line + 1) =
          some (bytes before + bytes (content ++ c :: more)))
        (hmem : c :: more ∈ terminators) : ∃ terminator ∈ terminators,
          Text.slice text (bytes before)
            (((build text).lineStart? (line + 1)).getD (bytes text)) = content ++ terminator := by
      refine ⟨c :: more, hmem, ?_⟩
      rw [hq, Option.getD_some, hslice (content ++ c :: more) rest (by rw [h]; simp)]
    have hsplit : text = (before ++ content) ++ c :: tail := by rw [htext, List.append_assoc]
    by_cases hpair : c = '\r' ∧ tail.head? = some '\n'
    · obtain ⟨rfl, hhead⟩ := hpair
      obtain ⟨tail, rfl⟩ : ∃ tail', tail = '\n' :: tail' := by
        cases tail with
        | nil => cases hhead
        | cons d tail => exact ⟨tail, by rw [Option.some.inj hhead]⟩
      have hmem : bytes (before ++ (content ++ ['\r', '\n'])) ∈ (build text).starts := by
        refine List.mem_cons_of_mem _ (mem_laterStarts.2
          ⟨before ++ content ++ ['\r'], '\n', tail, by rw [hsplit]; simp, by decide, by simp, ?_⟩)
        simp [Text.bytes_append, Nat.add_assoc]
      obtain ⟨more, rest, hmore, hle, hq⟩ := hnext ['\r', '\n'] tail rfl (by simp) hmem
      cases more with
      | nil =>
        rw [← Text.bytes_append, ← List.append_assoc] at hq
        exact (not_start_of_pair hsplit (List.mem_of_getElem? hq)).elim
      | cons d more =>
        obtain rfl : d = '\n' := (List.cons.inj hmore).1.symm
        obtain rfl : more = [] := by
          by_contra hne
          have := Text.bytes_pos hne
          simp only [Text.bytes_cons, Text.bytes_nil] at hle
          omega
        exact hended ['\n'] rest hmore hq (by simp [terminators])
    · have hbreak : isLineBreak c = true := htail c rfl
      have hmem : bytes (before ++ (content ++ [c])) ∈ (build text).starts := by
        refine List.mem_cons_of_mem _ (mem_laterStarts.2
          ⟨before ++ content, c, tail, hsplit, hbreak, hpair, ?_⟩)
        simp [Text.bytes_append, Nat.add_assoc]
      obtain ⟨more, rest, hmore, hle, hq⟩ := hnext [c] tail rfl (by simp) hmem
      obtain rfl : more = [] := by
        by_contra hne
        have := Text.bytes_pos hne
        simp only [Text.bytes_cons, Text.bytes_nil] at hle
        omega
      refine hended [] rest hmore hq ?_
      rcases (isLineBreak_iff c).1 hbreak with rfl | rfl | rfl | rfl <;> simp [terminators]

end LineMap

namespace Lint

open Text (bytes IsBoundary)

namespace Snippet

/-! ### Marks -/

/-- Columns that a run of characters takes when it is shown. -/
def columns : List Char → Nat
  | [] => 0
  | c :: cs => width c + columns cs

/-- A line cut in three: what stands before `first`, what stands from there up to `last`, and the
rest. A character stands where its first byte does. -/
structure Cut (start : Nat) (line : List Char) (first last : Nat) (u v w : List Char) : Prop where
  eq : line = u ++ (v ++ w)
  before : ∀ x c y, u = x ++ c :: y → start + bytes x < first
  inside : ∀ x c y, v = x ++ c :: y →
    first ≤ start + bytes (u ++ x) ∧ start + bytes (u ++ x) < last
  behind : ∀ x c y, w = x ++ c :: y → last ≤ start + bytes (u ++ (v ++ x))

variable {start first last : Nat} {line u v w : List Char}

lemma columns_cons (c : Char) (cs : List Char) : columns (c :: cs) = width c + columns cs := rfl

lemma columns_pos (h : v ≠ []) : 0 < columns v := by
  obtain ⟨c, v, rfl⟩ := List.exists_cons_of_ne_nil h
  have hwidth : 0 < width c := by
    unfold width
    split <;> omega
  rw [columns_cons]
  omega

/-- The parts of the rest of a line, with one more character in front of the first part. -/
lemma Cut.cons {c : Char} (hc : start < first)
    (h : Cut (start + c.utf8Size) line first last u v w) :
    Cut start (c :: line) first last (c :: u) v w where
  eq := by rw [h.eq]; rfl
  before x d y hx := by
    cases x with
    | nil => simpa using hc
    | cons e x =>
      obtain ⟨rfl, rfl⟩ := List.cons.inj hx
      have := h.before x d y rfl
      rw [Text.bytes_cons]
      omega
  inside x d y hx := by
    have := h.inside x d y hx
    rw [List.cons_append, Text.bytes_cons]
    omega
  behind x d y hx := by
    have := h.behind x d y hx
    rw [List.cons_append, Text.bytes_cons]
    omega

/-- The same with one more character in front of the second part. -/
lemma Cut.cons_inside {c : Char} (hfirst : first ≤ start) (hlast : start < last)
    (h : Cut (start + c.utf8Size) line first last [] v w) :
    Cut start (c :: line) first last [] (c :: v) w where
  eq := by rw [h.eq]; rfl
  before x d y hx := by simp at hx
  inside x d y hx := by
    cases x with
    | nil => simpa using ⟨hfirst, hlast⟩
    | cons e x =>
      obtain ⟨rfl, rfl⟩ := List.cons.inj hx
      have := h.inside x d y rfl
      simp only [List.nil_append, Text.bytes_cons] at this ⊢
      omega
  behind x d y hx := by
    have := h.behind x d y hx
    rw [List.nil_append] at this ⊢
    rw [List.cons_append, Text.bytes_cons]
    omega

/-- The marks are spaces up to the range, and tildes below it. -/
lemma marks_spec (first last start : Nat) (line : List Char) :
    ∃ u v w, Cut start line first last u v w ∧
      marks first last start line =
        List.replicate (columns u) ' ' ++ List.replicate (columns v) '~' := by
  induction line generalizing start with
  | nil => exact ⟨[], [], [], ⟨rfl, by simp, by simp, by simp⟩, rfl⟩
  | cons c line ih =>
    rw [marks]
    split
    · next hlast =>
      refine ⟨[], [], c :: line, ⟨rfl, by simp, by simp, fun x d y _ => ?_⟩, rfl⟩
      omega
    · next hlast =>
      obtain ⟨u, v, w, hcut, hmarks⟩ := ih (start + c.utf8Size)
      rw [hmarks]
      split
      · next hfirst =>
        refine ⟨c :: u, v, w, hcut.cons hfirst, ?_⟩
        rw [columns_cons, ← List.replicate_append_replicate, List.append_assoc]
      · next hfirst =>
        -- nothing behind this character stands before the range
        obtain rfl : u = [] := by
          by_contra hne
          obtain ⟨d, u, rfl⟩ := List.exists_cons_of_ne_nil hne
          have := hcut.before [] d u rfl
          rw [Text.bytes_nil] at this
          omega
        refine ⟨[], c :: v, w, hcut.cons_inside (by omega) (by omega), ?_⟩
        rw [columns_cons, ← List.replicate_append_replicate]
        rfl

/-- Where a range starts on a line, clipped to it. -/
def clippedStart (start : Nat) (line : List Char) (r : TextRange) : Nat :=
  min (max r.start start) (start + bytes line)

/-- Where a range stops on a line, clipped to it. -/
def clippedStop (start : Nat) (line : List Char) (r : TextRange) : Nat :=
  min (max r.stop (clippedStart start line r)) (start + bytes line)

lemma clipped_le (start : Nat) (line : List Char) (r : TextRange) :
    start ≤ clippedStart start line r ∧ clippedStart start line r ≤ clippedStop start line r ∧
      clippedStop start line r ≤ start + bytes line := by
  unfold clippedStop clippedStart
  omega

/-- **The marks below a line are tildes under the range, clipped to the line, and at least one.** -/
lemma underline_spec (start : Nat) (line : List Char) (r : TextRange) :
    ∃ u v w, Cut start line (clippedStart start line r) (clippedStop start line r) u v w ∧
      underline start line r.start r.stop =
        List.replicate (columns u) ' ' ++ List.replicate (max 1 (columns v)) '~' := by
  obtain ⟨u, v, w, hcut, hmarks⟩ :=
    marks_spec (clippedStart start line r) (clippedStop start line r) start line
  refine ⟨u, v, w, hcut, ?_⟩
  have hunder : underline start line r.start r.stop =
      let under := marks (clippedStart start line r) (clippedStop start line r) start line
      if under.contains '~' then under else under ++ ['~'] := rfl
  rw [hunder, hmarks]
  cases v with
  | nil => simp [columns]
  | cons c v =>
    have hpos := columns_pos (List.cons_ne_nil c v)
    have hmem : '~' ∈ List.replicate (columns (c :: v)) '~' :=
      List.mem_replicate.2 ⟨Nat.ne_of_gt hpos, rfl⟩
    have hcontains : (List.replicate (columns u) ' ' ++
        List.replicate (columns (c :: v)) '~').contains '~' = true :=
      List.contains_iff_mem.2 (List.mem_append_right _ hmem)
    simp only [hcontains, if_true, Nat.max_eq_right hpos]

/-- A cut at whole characters is made there. -/
lemma Cut.bytes_eq (h : Cut start line first last u v w) (hle : first ≤ last) {x y : List Char}
    (hline : line = x ++ y) (hfirst : first = start + bytes x) : u = x := by
  have heq : u ++ (v ++ w) = x ++ y := h.eq.symm.trans hline
  rcases List.append_eq_append_iff.1 heq with ⟨a, rfl, hrest⟩ | ⟨a, rfl, -⟩
  · cases a with
    | nil => simp
    | cons c a =>
      -- the next character is in the range or behind it, and starts before it
      have hpos := c.utf8Size_pos
      rw [Text.bytes_append, Text.bytes_cons] at hfirst
      cases v with
      | nil =>
        have := h.behind [] c (a ++ y) hrest
        simp only [List.append_nil] at this
        omega
      | cons d v =>
        obtain ⟨rfl, -⟩ := List.cons.inj hrest
        have := (h.inside [] d v rfl).1
        rw [List.append_nil] at this
        omega
  · cases a with
    | nil => simp
    | cons c a =>
      have := h.before x c a rfl
      omega

/-- The first two parts of a cut are what stands before `last`. -/
lemma Cut.join (h : Cut start line first last u v w) (hle : first ≤ last) :
    Cut start line last last (u ++ v) [] w where
  eq := by rw [h.eq]; simp
  before x c y hx := by
    rcases List.append_eq_append_iff.1 hx with ⟨a, rfl, ha⟩ | ⟨a, rfl, ha⟩
    · exact (h.inside a c y ha).2
    · cases a with
      | nil =>
        have := (h.inside [] c y ha.symm).2
        simpa using this
      | cons d a =>
        obtain ⟨rfl, -⟩ := List.cons.inj ha
        have := h.before x c a rfl
        omega
  inside x c y hx := by simp at hx
  behind x c y hx := by
    have := h.behind x c y hx
    simpa using this

end Snippet

open Snippet

variable {text : Source} {r : TextRange} {start p : Nat} {shown u v w : List Char}

/-- What is shown of a text for a range: the run `shown` from the start of the range's line on, of
which `v` is in the range, `u` before it and `w` behind it. -/
structure Shows (text : Source) (r : TextRange) (start : Nat) (shown u v w : List Char) : Prop where
  lineStart? : (LineMap.build text).lineStart? ((LineMap.build text).lineOf r.start) = some start
  /-- Both ends of the run lie between characters. -/
  bounded : IsBoundary text start ∧ IsBoundary text (start + bytes shown)
  run : ∃ before after, text = before ++ (shown ++ after) ∧ start = bytes before ∧
    (∀ c ∈ shown, c ≠ '\n' ∧ c ≠ '\r') ∧ ∀ c ∈ after.head?, c = '\n' ∨ c = '\r'
  /-- The run is the content of the line, unless U+2028 or U+2029 is in it. -/
  isLine : LineMap.IsLine text ((LineMap.build text).lineOf r.start) start shown ↔
    ∀ c ∈ shown, c ≠ '\u2028' ∧ c ≠ '\u2029'
  clipped : start ≤ clippedStart start shown r ∧
    clippedStart start shown r ≤ clippedStop start shown r ∧
    clippedStop start shown r ≤ start + bytes shown
  cut : Cut start shown (clippedStart start shown r) (clippedStop start shown r) u v w
  /-- A range between characters is cut out exactly. -/
  exact : IsBoundary text r.start → IsBoundary text r.stop →
    u = Text.slice text start (clippedStart start shown r) ∧
      v = Text.slice text (clippedStart start shown r) (clippedStop start shown r)

/-- A boundary within a run cuts it. -/
lemma exists_cut_run {before after : List Char} (htext : text = before ++ (shown ++ after))
    (hp : IsBoundary text p) (hle : bytes before ≤ p) (hlast : p ≤ bytes before + bytes shown) :
    ∃ x y, shown = x ++ y ∧ p = bytes before + bytes x := by
  obtain ⟨x, rest, hx, rfl⟩ := Text.exists_cut (htext ▸ hp) hle
  obtain ⟨y, rfl⟩ := Text.append_of_le hx.symm (by omega)
  exact ⟨x, y, rfl, rfl⟩

lemma exact_of_cut {before after : List Char} (htext : text = before ++ (shown ++ after))
    (hstart : IsBoundary text (bytes before))
    (hstop : IsBoundary text (bytes before + bytes shown))
    (hcut : Cut (bytes before) shown (clippedStart (bytes before) shown r)
      (clippedStop (bytes before) shown r) u v w)
    (hr : IsBoundary text r.start) (hr' : IsBoundary text r.stop) :
    u = Text.slice text (bytes before) (clippedStart (bytes before) shown r) ∧
      v = Text.slice text (clippedStart (bytes before) shown r)
        (clippedStop (bytes before) shown r) := by
  obtain ⟨hle, hmid, hlast⟩ := clipped_le (bytes before) shown r
  have hfirst : IsBoundary text (clippedStart (bytes before) shown r) := by
    have hcases : clippedStart (bytes before) shown r = r.start ∨
        clippedStart (bytes before) shown r = bytes before ∨
        clippedStart (bytes before) shown r = bytes before + bytes shown := by
      unfold clippedStart
      omega
    rcases hcases with h | h | h <;> rw [h] <;> assumption
  have hsecond : IsBoundary text (clippedStop (bytes before) shown r) := by
    have hcases : clippedStop (bytes before) shown r = r.stop ∨
        clippedStop (bytes before) shown r = clippedStart (bytes before) shown r ∨
        clippedStop (bytes before) shown r = bytes before + bytes shown := by
      unfold clippedStop
      omega
    rcases hcases with h | h | h <;> rw [h] <;> assumption
  obtain ⟨x, y, hx, hxp⟩ := exists_cut_run htext hfirst hle (by omega)
  obtain ⟨x', y', hx', hxp'⟩ := exists_cut_run htext hsecond (by omega) hlast
  obtain rfl := hcut.bytes_eq hmid hx hxp
  obtain rfl := (hcut.join hmid).bytes_eq (Nat.le_refl _) hx' hxp'
  rw [hxp', hxp, htext, hcut.eq]
  constructor
  · rw [List.append_assoc, Text.slice, Text.slice?_append, Option.getD_some]
  · have hsplit : before ++ (u ++ (v ++ w) ++ after) = (before ++ u) ++ (v ++ (w ++ after)) := by
      simp
    rw [hsplit, Text.bytes_append u, ← Nat.add_assoc, ← Text.bytes_append before, Text.slice,
      Text.slice?_append, Option.getD_some]

/-- The run that is shown: from the start of a line up to a line feed or carriage return. -/
lemma lineAt_spec {before rest : List Char} (htext : text = before ++ rest) :
    ∃ after, rest = lineAt text (bytes before) ++ after ∧
      (∀ c ∈ lineAt text (bytes before), c ≠ '\n' ∧ c ≠ '\r') ∧
      ∀ c ∈ after.head?, c = '\n' ∨ c = '\r' := by
  have hat : lineAt text (bytes before) = rest.takeWhile fun c => c != '\n' && c != '\r' := by
    rw [lineAt, htext, Text.suffixAt, Text.dropBytes?_append, Option.getD_some]
  rw [hat]
  refine ⟨rest.dropWhile fun c => c != '\n' && c != '\r', List.takeWhile_append_dropWhile.symm,
    fun c hc => by simpa using List.mem_takeWhile_imp hc, fun c hc => ?_⟩
  have := List.head?_dropWhile_not (fun c => c != '\n' && c != '\r') rest
  rw [Option.mem_def.1 hc] at this
  simpa [or_iff_not_imp_left] using this

/-- The run is the content of its line if no other line break is in it. -/
lemma isLine_run_iff {line : Nat} {before after : List Char}
    (htext : text = before ++ (shown ++ after))
    (hstart : (LineMap.build text).lineStart? line = some (bytes before))
    (hunbroken : ∀ c ∈ shown, c ≠ '\n' ∧ c ≠ '\r')
    (hended : ∀ c ∈ after.head?, c = '\n' ∨ c = '\r') :
    LineMap.IsLine text line (bytes before) shown ↔
      ∀ c ∈ shown, c ≠ '\u2028' ∧ c ≠ '\u2029' := by
  constructor
  · intro h c hc
    have hnone := h.unbroken c hc
    constructor <;> rintro rfl <;> exact absurd hnone (by decide)
  · intro h
    refine LineMap.isLine_of_cut htext hstart (fun c hc => ?_) fun c hc => ?_
    · rw [← Bool.not_eq_true, LineMap.isLineBreak_iff]
      have := hunbroken c hc
      have := h c hc
      tauto
    · rw [LineMap.isLineBreak_iff]
      have := hended c hc
      tauto

/-- **A snippet shows a run of the range's line with a tab as four spaces, and below it tildes under
the part of the range on that run.** -/
theorem snippet_shows (f : Format) (name : String) (text : Source) (r : TextRange) :
    ∃ start shown u v w, Shows text r start shown u v w ∧
      f.snippet (SourceFile.parse name text) r =
        "\n  ".toList ++ Format.lineNumber ((LineMap.build text).lineOf r.start + 1) ++
          "   ".toList ++ shownLine shown ++ "\n        ".toList ++
          f.styled .red (List.replicate (columns u) ' ' ++
            List.replicate (max 1 (columns v)) '~') := by
  obtain ⟨start, hstart, -⟩ := LineMap.lineOf_spec text r.start
  have hbefore := LineMap.isBoundary_lineStart hstart
  obtain ⟨before, rest, htext, rfl⟩ := Text.isBoundary_iff.1 hbefore
  obtain ⟨after, rfl, hunbroken, hended⟩ := lineAt_spec htext
  obtain ⟨u, v, w, hcut, hunder⟩ := underline_spec (bytes before) (lineAt text (bytes before)) r
  have hstop : IsBoundary text (bytes before + bytes (lineAt text (bytes before))) :=
    Text.isBoundary_iff.2 ⟨before ++ lineAt text (bytes before), after, by
      rw [List.append_assoc]; exact htext, (Text.bytes_append ..).symm⟩
  refine ⟨bytes before, lineAt text (bytes before), u, v, w, ?_, ?_⟩
  · exact {
      lineStart? := hstart
      bounded := ⟨hbefore, hstop⟩
      run := ⟨before, after, htext, rfl, hunbroken, hended⟩
      isLine := isLine_run_iff htext hstart hunbroken hended
      clipped := clipped_le ..
      cut := hcut
      exact := exact_of_cut htext hbefore hstop hcut }
  · have hlines : (SourceFile.parse name text).lines = LineMap.build text := rfl
    have hsource : (SourceFile.parse name text).text = text := rfl
    simp only [Format.snippet, hlines, hsource, hstart, hunder]

/-- A line that U+2028 ends is shown with the next one. -/
theorem separator_shown :
    LineMap.IsLine "a\u2028b".toList 0 0 ['a'] ∧
      Format.snippet ⟨false, true⟩ (SourceFile.parse "a.ts" "a\u2028b".toList) ⟨0, 1⟩ =
        "\n    1   a\u2028b\n        ~".toList := by
  constructor
  · have htext : "a\u2028b".toList = [] ++ (['a'] ++ ['\u2028', 'b']) := rfl
    exact LineMap.isLine_of_cut htext rfl (by simp [Text.isLineBreak])
      (by simp [Text.isLineBreak])
  · have hlines : (SourceFile.parse "a.ts" "a\u2028b".toList).lines =
        LineMap.build "a\u2028b".toList := rfl
    have hsource : (SourceFile.parse "a.ts" "a\u2028b".toList).text = "a\u2028b".toList := rfl
    rw [Format.snippet, hlines, hsource]
    decide

end Lint

end EstreeLint
