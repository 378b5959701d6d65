import EstreeLint.Lint.Fix
import EstreeLint.Proofs.Text.Slice
import Mathlib.Data.List.Sort

/-!
Fixes put into a text, as a scan over the fixes in the order of their starts.

A fix is looked at once and knows of those before it only where the last one taken ends, so what is
taken of a prefix does not depend on what follows. The ranges taken tile the text together with what
stands between them, which gives the new text piece by piece and every cut its boundary.
-/

namespace EstreeLint.Lint

namespace Fix

open Text (IsBoundary)

variable {text : Source} {last cursor : Nat} {f : Fix} {fixes fs gs : List Fix}

/-! ### The order of the fixes -/

lemma sorted_perm (fixes : List Fix) : (sorted fixes).Perm fixes := List.mergeSort_perm ..

lemma sorted_pairwise (fixes : List Fix) :
    (sorted fixes).Pairwise fun f g => f.range.start ≤ g.range.start := by
  have h := @List.pairwise_mergeSort Fix (fun f g => f.range.start ≤ g.range.start)
    (fun _ _ _ hab hbc => by simp only [decide_eq_true_eq] at *; omega)
    (fun a b => by simp only [Bool.or_eq_true, decide_eq_true_eq]; omega) fixes
  simpa [sorted] using h

/-- Fixes that start together keep their order. -/
lemma sorted_stable (fixes : List Fix) (start : Nat) :
    (sorted fixes).filter (·.range.start == start) = fixes.filter (·.range.start == start) := by
  have hequal : (fixes.filter (·.range.start == start)).Pairwise
      fun f g => decide (f.range.start ≤ g.range.start) = true := by
    rw [List.pairwise_iff_forall_sublist]
    intro a b hab
    have ha := List.of_mem_filter (hab.subset (List.mem_cons_self ..))
    have hb := List.of_mem_filter (hab.subset (List.mem_cons_of_mem _ (List.mem_singleton_self _)))
    simp only [beq_iff_eq, decide_eq_true_eq] at ha hb ⊢
    omega
  have hsub : (fixes.filter (·.range.start == start)).Sublist (sorted fixes) :=
    List.sublist_mergeSort (fun _ _ _ hab hbc => by simp only [decide_eq_true_eq] at *; omega)
      (fun a b => by simp only [Bool.or_eq_true, decide_eq_true_eq]; omega) hequal
      List.filter_sublist
  have hfilter := hsub.filter (·.range.start == start)
  rw [List.filter_filter] at hfilter
  simp only [Bool.and_self] at hfilter
  exact (hfilter.eq_of_length ((sorted_perm fixes).filter _).length_eq.symm).symm

/-! ### What is taken -/

/-- Where the last of the fixes taken ends, if there is one. -/
def endOf (last : Nat) (taken : List Fix) : Nat := taken.getLast?.elim last (·.range.stop)

@[simp] lemma endOf_nil : endOf last [] = last := rfl

@[simp] lemma endOf_cons : endOf last (f :: fs) = endOf f.range.stop fs := by
  simp only [endOf, List.getLast?_cons]
  cases fs.getLast? <;> rfl

/-- What is taken of the later fixes depends on the earlier ones by their last end only. -/
lemma acceptedFrom_append (text : Source) (last : Nat) (fs gs : List Fix) :
    acceptedFrom text last (fs ++ gs) =
      acceptedFrom text last fs ++
        acceptedFrom text (endOf last (acceptedFrom text last fs)) gs := by
  induction fs generalizing last with
  | nil => rfl
  | cons f fs ih =>
    simp only [List.cons_append, acceptedFrom]
    split
    · rw [ih, List.cons_append, endOf_cons]
    · exact ih last

lemma acceptedFrom_sublist (text : Source) (last : Nat) (fs : List Fix) :
    (acceptedFrom text last fs).Sublist fs := by
  induction fs generalizing last with
  | nil => exact List.Sublist.slnil
  | cons f fs ih =>
    simp only [acceptedFrom]
    split
    · exact (ih _).cons_cons f
    · exact (ih _).cons f

/-- A fix that finds no place after the fixes taken before it: its range is reversed, ends past the
text, is off a boundary at one end, or starts before the last of them ends. -/
def Rejects (text : Source) (taken : List Fix) (f : Fix) : Prop :=
  f.range.stop < f.range.start ∨ Text.bytes text < f.range.stop ∨
    ¬ IsBoundary text f.range.start ∨ ¬ IsBoundary text f.range.stop ∨
      ∃ g ∈ taken.getLast?, f.range.start < g.range.stop

lemma fits_iff :
    f.fits text = true ↔
      f.range.start ≤ f.range.stop ∧ IsBoundary text f.range.start ∧
        IsBoundary text f.range.stop := by
  simp [fits, IsBoundary, and_assoc]

lemma endOf_le_iff {taken : List Fix} :
    endOf 0 taken ≤ f.range.start ↔ ¬ ∃ g ∈ taken.getLast?, f.range.start < g.range.stop := by
  cases h : taken.getLast? with
  | none => simp [endOf, h]
  | some g => simp [endOf, h]

lemma not_rejects_iff {taken : List Fix} :
    ¬ Rejects text taken f ↔ f.fits text = true ∧ endOf 0 taken ≤ f.range.start := by
  rw [fits_iff, endOf_le_iff]
  constructor
  · intro h
    simp only [Rejects, not_or, not_not] at h
    exact ⟨⟨by omega, h.2.2.1, h.2.2.2.1⟩, h.2.2.2.2⟩
  · rintro ⟨⟨hle, hstart, hstop⟩, hlast⟩ (h | h | h | h | h)
    · omega
    · have := hstop.le_bytes
      omega
    · exact h hstart
    · exact h hstop
    · exact hlast h

/-- One more fix is left out if it finds no place, and else taken. -/
lemma acceptedFrom_concat (text : Source) (fs : List Fix) (f : Fix) :
    (Rejects text (acceptedFrom text 0 fs) f →
      acceptedFrom text 0 (fs ++ [f]) = acceptedFrom text 0 fs) ∧
    (¬ Rejects text (acceptedFrom text 0 fs) f →
      acceptedFrom text 0 (fs ++ [f]) = acceptedFrom text 0 fs ++ [f]) := by
  rw [acceptedFrom_append]
  constructor
  · intro h
    have hout : ¬ (f.fits text = true ∧ endOf 0 (acceptedFrom text 0 fs) ≤ f.range.start) :=
      fun hin => not_rejects_iff.2 hin h
    simp [acceptedFrom, hout]
  · intro h
    have hin := not_rejects_iff.1 h
    simp [acceptedFrom, hin]

/-! ### Pieces of the text -/

/-- A text from an offset on, and what becomes of it when the ranges of fixes are replaced: what
stands before each range is kept, the range itself gives way to the text of its fix. -/
inductive Spliced : Nat → List Fix → List Char → List Char → Prop
  | done {cursor : Nat} (rest : List Char) : Spliced cursor [] rest rest
  | next {cursor : Nat} {f : Fix} {fs : List Fix} {rest out : List Char} (kept cut : List Char)
      (start : f.range.start = cursor + Text.bytes kept)
      (stop : f.range.stop = f.range.start + Text.bytes cut)
      (later : Spliced f.range.stop fs rest out) :
      Spliced cursor (f :: fs) (kept ++ (cut ++ rest)) (kept ++ (f.text.toList ++ out))

/-- The fixes that are taken cut the text into pieces, and the new text is put together from
them. -/
lemma spliced_acceptedFrom (h : IsBoundary text cursor) (fs : List Fix) :
    Spliced cursor (acceptedFrom text cursor fs) (Text.suffixAt text cursor)
      (splice text cursor (acceptedFrom text cursor fs)) := by
  induction fs generalizing cursor with
  | nil => exact .done _
  | cons f fs ih =>
    simp only [acceptedFrom]
    split
    · rename_i htaken
      simp only [Bool.and_eq_true, decide_eq_true_eq, fits_iff] at htaken
      obtain ⟨⟨hle, hstart, hstop⟩, hcursor⟩ := htaken
      obtain ⟨u, rest, rfl, rfl⟩ := Text.isBoundary_iff.1 h
      obtain ⟨kept, rest, rfl, hkept⟩ := Text.exists_cut hstart hcursor
      have hbytes : f.range.start = Text.bytes (u ++ kept) := by rw [hkept, Text.bytes_append]
      rw [← List.append_assoc] at hstop
      obtain ⟨cut, rest, rfl, hcut⟩ := Text.exists_cut hstop (hbytes ▸ hle)
      have hlater := @ih f.range.stop (by simpa using hstop)
      have hrest : Text.suffixAt (u ++ (kept ++ (cut ++ rest))) f.range.stop = rest := by
        rw [hcut, ← Text.bytes_append]
        simpa [Text.suffixAt] using
          congrArg (Option.getD · []) (Text.dropBytes?_append (u ++ kept ++ cut) rest)
      rw [hrest] at hlater
      have hslice :
          Text.slice (u ++ (kept ++ (cut ++ rest))) (Text.bytes u) f.range.start = kept := by
        rw [hkept, Text.slice, Text.slice?_append, Option.getD_some]
      rw [splice, hslice, Text.suffixAt, Text.dropBytes?_append, Option.getD_some,
        List.append_assoc]
      exact .next kept cut hkept (by rw [hcut, hbytes]) hlater
    · exact ih h

/-- No range that is taken reaches into the next one. -/
lemma acceptedFrom_pairwise (text : Source) (last : Nat) (fs : List Fix) :
    (acceptedFrom text last fs).Pairwise (fun f g => f.range.stop ≤ g.range.start) ∧
      ∀ f ∈ acceptedFrom text last fs, last ≤ f.range.start ∧ f.range.start ≤ f.range.stop := by
  induction fs generalizing last with
  | nil => simp [acceptedFrom]
  | cons f fs ih =>
    simp only [acceptedFrom]
    split
    · rename_i htaken
      simp only [Bool.and_eq_true, decide_eq_true_eq, fits_iff] at htaken
      obtain ⟨hpairs, hlater⟩ := ih f.range.stop
      refine ⟨List.pairwise_cons.2 ⟨fun g hg => (hlater g hg).1, hpairs⟩, fun g hg => ?_⟩
      rcases List.mem_cons.1 hg with rfl | hg
      · exact ⟨htaken.2, htaken.1.1⟩
      · have := hlater g hg
        omega
    · exact ih last

end Fix

/-! ### The scan -/

/-- A scan over the fixes: what has been written, how far the text has been copied, where the last
fix that was put in ends, and how many have been put in or left out. -/
structure Splicing where
  out : List Char := []
  cursor : Nat := 0
  last? : Option Nat := none
  applied : Nat := 0
  rejected : Nat := 0

namespace Splicing

open Text (IsBoundary)

variable {text : Source} {s : Splicing} {f : Fix} {fs : List Fix}

/-- Looks at one fix. Nothing comes of it if the text cannot be cut where it has to be. -/
def visit (text : Source) (s : Splicing) (f : Fix) : Option Splicing :=
  if f.range.stop < f.range.start ∨ Text.bytes text < f.range.stop ∨
      ¬ IsBoundary text f.range.start ∨ ¬ IsBoundary text f.range.stop then
    some { s with rejected := s.rejected + 1 }
  else if s.last?.any (f.range.start < ·) then some { s with rejected := s.rejected + 1 }
  else
    (Text.slice? text s.cursor f.range.start).map fun kept =>
      { s with
        out := s.out ++ kept ++ f.text.toList
        cursor := f.range.stop
        last? := some f.range.stop
        applied := s.applied + 1 }

/-- Copies what is left of the text. -/
def finish? (text : Source) (s : Splicing) : Option Fixed :=
  (Text.dropBytes? s.cursor text).map fun rest => ⟨s.out ++ rest, s.applied, s.rejected⟩

/-- The text is copied up to where the last fix ends, and that is a place to cut it. -/
structure Standing (text : Source) (s : Splicing) : Prop where
  boundary : IsBoundary text s.cursor
  last : s.last?.getD 0 = s.cursor

lemma Standing.any_iff (h : s.Standing text) (n : Nat) :
    s.last?.any (n < ·) = true ↔ n < s.cursor := by
  rw [← h.last]
  cases s.last? <;> simp

lemma visit_of_rejected (h : s.Standing text)
    (hf : ¬ (f.fits text = true ∧ s.cursor ≤ f.range.start)) :
    s.visit text f = some { s with rejected := s.rejected + 1 } := by
  rw [visit]
  split
  · rfl
  · rename_i hrange
    simp only [not_or, not_not] at hrange
    have hfits := Fix.fits_iff.2 ⟨Nat.le_of_not_lt hrange.1, hrange.2.2⟩
    have hlast : f.range.start < s.cursor := Nat.lt_of_not_le fun hle => hf ⟨hfits, hle⟩
    rw [if_pos ((h.any_iff _).2 hlast)]

lemma visit_of_accepted (h : s.Standing text) (hf : f.fits text = true)
    (hle : s.cursor ≤ f.range.start) :
    s.visit text f =
        some ⟨s.out ++ Text.slice text s.cursor f.range.start ++ f.text.toList, f.range.stop,
          some f.range.stop, s.applied + 1, s.rejected⟩ ∧
      Standing text ⟨s.out ++ Text.slice text s.cursor f.range.start ++ f.text.toList, f.range.stop,
        some f.range.stop, s.applied + 1, s.rejected⟩ := by
  obtain ⟨hordered, hstart, hstop⟩ := Fix.fits_iff.1 hf
  have hrange : ¬ (f.range.stop < f.range.start ∨ Text.bytes text < f.range.stop ∨
      ¬ IsBoundary text f.range.start ∨ ¬ IsBoundary text f.range.stop) := by
    have hbytes := hstop.le_bytes
    rintro (h | h | h | h)
    · omega
    · omega
    · exact h hstart
    · exact h hstop
  have hlast : ¬ s.last?.any (f.range.start < ·) = true := by
    rw [h.any_iff]
    omega
  obtain ⟨u, rest, rfl, hu⟩ := Text.isBoundary_iff.1 h.boundary
  obtain ⟨kept, rest, rfl, hkept⟩ := Text.exists_cut hstart (hu ▸ hle)
  have hslice : Text.slice? (u ++ (kept ++ rest)) s.cursor f.range.start = some kept := by
    rw [hu, hkept, Text.slice?_append]
  rw [visit, if_neg hrange, if_neg hlast, Text.slice, hslice]
  exact ⟨rfl, hstop, rfl⟩

/-- The scan comes to its end from any standing, and what it has written then is the text with the
fixes that are taken put in. -/
lemma run_visit (h : s.Standing text) (fs : List Fix) :
    (fs.foldlM (visit text) s).bind (finish? text) =
      some ⟨s.out ++ Fix.splice text s.cursor (Fix.acceptedFrom text s.cursor fs),
        s.applied + (Fix.acceptedFrom text s.cursor fs).length,
        s.rejected + (fs.length - (Fix.acceptedFrom text s.cursor fs).length)⟩ := by
  induction fs generalizing s with
  | nil =>
    obtain ⟨rest, hrest⟩ := Option.isSome_iff_exists.1 h.boundary
    simp [finish?, hrest, Fix.acceptedFrom, Fix.splice, Text.suffixAt]
  | cons f fs ih =>
    have hcount := (Fix.acceptedFrom_sublist text s.cursor fs).length_le
    by_cases hf : f.fits text = true ∧ s.cursor ≤ f.range.start
    · obtain ⟨hvisit, hnext⟩ := visit_of_accepted h hf.1 hf.2
      rw [List.foldlM_cons, hvisit, Option.bind_eq_bind, Option.bind_some, ih hnext]
      simp only [Fix.acceptedFrom, hf, decide_true, Bool.and_self, if_true, Fix.splice,
        List.length_cons, List.append_assoc, Nat.add_sub_add_right, Nat.add_assoc,
        Nat.add_comm 1]
    · have hnext : Standing text { s with rejected := s.rejected + 1 } := ⟨h.boundary, h.last⟩
      rw [List.foldlM_cons, visit_of_rejected h hf, Option.bind_eq_bind, Option.bind_some,
        ih hnext]
      have hskip :
          Fix.acceptedFrom text s.cursor (f :: fs) = Fix.acceptedFrom text s.cursor fs := by
        simp [Fix.acceptedFrom, hf]
      have hrejected : s.rejected + 1 + (fs.length - (Fix.acceptedFrom text s.cursor fs).length) =
          s.rejected + (fs.length + 1 - (Fix.acceptedFrom text s.cursor fs).length) := by
        omega
      rw [hskip, List.length_cons, ← hrejected]

end Splicing

namespace Fixed

open EstreeLint.Lint.Fix

/-- **Fixes are put into a text as a scan in the order of their starts puts them in**, which is not
stopped by any of them. Of each prefix of that order the next fix is left out exactly if it finds no
place after those taken before it; what is taken is in order and does not overlap, and the new text
is the old one with the ranges taken replaced and everything else kept. -/
theorem ofFixes_splices (text : Source) (fixes : List Fix) :
    ((sorted fixes).Perm fixes ∧
      (sorted fixes).Pairwise (fun f g => f.range.start ≤ g.range.start) ∧
      ∀ start, (sorted fixes).filter (·.range.start == start) =
        fixes.filter (·.range.start == start)) ∧
    ((sorted fixes).foldlM (Splicing.visit text) {}).bind (Splicing.finish? text) =
      some (ofFixes text fixes) ∧
    (∀ before f after, sorted fixes = before ++ f :: after →
      (∃ later, later.Sublist after ∧
        accepted text fixes = acceptedFrom text 0 (before ++ [f]) ++ later) ∧
      (Rejects text (acceptedFrom text 0 before) f →
        acceptedFrom text 0 (before ++ [f]) = acceptedFrom text 0 before) ∧
      (¬ Rejects text (acceptedFrom text 0 before) f →
        acceptedFrom text 0 (before ++ [f]) = acceptedFrom text 0 before ++ [f])) ∧
    (ofFixes text fixes).applied = (accepted text fixes).length ∧
    (ofFixes text fixes).applied + (ofFixes text fixes).rejected = fixes.length ∧
    (accepted text fixes).Pairwise (fun f g => f.range.stop ≤ g.range.start) ∧
    Spliced 0 (accepted text fixes) text (ofFixes text fixes).text := by
  have hcount : (accepted text fixes).length ≤ fixes.length := by
    have h := (acceptedFrom_sublist text 0 (sorted fixes)).length_le
    rwa [(sorted_perm fixes).length_eq] at h
  refine ⟨⟨sorted_perm fixes, sorted_pairwise fixes, sorted_stable fixes⟩, ?_, ?_, rfl, ?_,
    (acceptedFrom_pairwise text 0 _).1, ?_⟩
  · rw [Splicing.run_visit ⟨Text.isBoundary_zero text, rfl⟩]
    simp [ofFixes, accepted, (sorted_perm fixes).length_eq]
  · intro before f after hsplit
    have hwhole := acceptedFrom_append text 0 (before ++ [f]) after
    rw [List.append_assoc, List.singleton_append, ← hsplit] at hwhole
    exact ⟨⟨_, acceptedFrom_sublist .., hwhole⟩, acceptedFrom_concat text before f⟩
  · simp only [ofFixes]
    omega
  · simpa [ofFixes, accepted] using spliced_acceptedFrom (Text.isBoundary_zero text) (sorted fixes)

end Fixed

end EstreeLint.Lint
