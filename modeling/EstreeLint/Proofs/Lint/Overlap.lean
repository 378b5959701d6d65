import EstreeLint.Proofs.Lint.Splice
import Mathlib.Data.List.Induction
import Mathlib.Data.List.Pairwise

/-!
Fixes that are left out, and the ranges that keep them out.

A fix that fits the text is left out on account of a range taken before it that reaches past its
start. Ranges come in the order of their starts, and then that is so if the two overlap, or if the
later one is an insertion right where the other starts. Such a pair has no byte in common and is
put in when the insertion is reported first: it is the one thing that the order of the reports
decides.
-/

namespace EstreeLint

namespace TextRange

/-- A range that is not empty, beside an empty one at its start. They do not overlap. -/
def displaces (r s : TextRange) : Bool :=
  r.start == s.start && s.start == s.stop && decide (r.start < r.stop)

variable {r s : TextRange}

lemma displaces_iff :
    r.displaces s = true ↔ r.start = s.start ∧ s.start = s.stop ∧ r.start < r.stop := by
  simp [displaces, and_assoc]

lemma overlaps_comm (r s : TextRange) : r.overlaps s = s.overlaps r := by
  simp [overlaps, Bool.and_comm]

/-- What it is for a range to reach past the start of a later one. -/
lemma lt_stop_iff (hs : s.start ≤ s.stop) (h : r.start ≤ s.start) :
    s.start < r.stop ↔ r.overlaps s = true ∨ r.displaces s = true := by
  simp only [displaces_iff, overlaps, Bool.and_eq_true, decide_eq_true_eq]
  omega

end TextRange

namespace Lint

namespace Fix

variable {text : Source} {f g : Fix} {fixes before after : List Fix}

lemma start_le_of_sorted (h : sorted fixes = before ++ f :: after) (hg : g ∈ before) :
    g.range.start ≤ f.range.start := by
  have hpairs := sorted_pairwise fixes
  rw [h, List.pairwise_append] at hpairs
  exact hpairs.2.2 g hg f (List.mem_cons_self ..)

/-- Two fixes that start together come in the order in which they are reported. -/
lemma sublist_iff_of_start (h : g.range.start = f.range.start) :
    [g, f].Sublist (sorted fixes) ↔ [g, f].Sublist fixes := by
  have hfilter : [g, f].filter (·.range.start == f.range.start) = [g, f] := by simp [h]
  rw [← hfilter]
  constructor
  · intro hsub
    have hboth := hsub.filter (·.range.start == f.range.start)
    rw [List.filter_filter, sorted_stable] at hboth
    simp only [Bool.and_self] at hboth
    exact hboth.trans List.filter_sublist
  · intro hsub
    have hboth := hsub.filter (·.range.start == f.range.start)
    rw [List.filter_filter, ← sorted_stable] at hboth
    simp only [Bool.and_self] at hboth
    exact hboth.trans List.filter_sublist

/-- Of the ranges taken the last reaches furthest. -/
lemma exists_last_iff (text : Source) (fs : List Fix) (start : Nat) :
    (∃ g ∈ (acceptedFrom text 0 fs).getLast?, start < g.range.stop) ↔
      ∃ g ∈ acceptedFrom text 0 fs, start < g.range.stop := by
  obtain ⟨hpairs, hordered⟩ := acceptedFrom_pairwise text 0 fs
  constructor
  · rintro ⟨g, hg, hstart⟩
    exact ⟨g, List.mem_of_mem_getLast? hg, hstart⟩
  · rintro ⟨g, hg, hstart⟩
    obtain ⟨taken, last, htaken⟩ := List.eq_nil_or_concat'
      (acceptedFrom text 0 fs) |>.resolve_left (List.ne_nil_of_mem hg)
    rw [htaken] at hpairs hordered hg ⊢
    refine ⟨last, by simp, ?_⟩
    rcases List.mem_append.1 hg with hg | hg
    · have hnext := (List.pairwise_append.1 hpairs).2.2 g hg last (List.mem_singleton_self _)
      have hlast := hordered last (by simp)
      omega
    · rwa [← List.mem_singleton.1 hg]

/-- A fix that fits is left out on account of a range it overlaps, or of a range that starts where
it is to be inserted and was reported before it. -/
lemma rejects_iff (h : sorted fixes = before ++ f :: after) (hf : f.fits text = true) :
    Rejects text (acceptedFrom text 0 before) f ↔
      ∃ g ∈ acceptedFrom text 0 before, g.range.overlaps f.range = true ∨
        g.range.displaces f.range = true ∧ [g, f].Sublist fixes := by
  have hordered := (fits_iff.1 hf).1
  have hlast : Rejects text (acceptedFrom text 0 before) f ↔
      ∃ g ∈ (acceptedFrom text 0 before).getLast?, f.range.start < g.range.stop := by
    rw [← not_iff_not, not_rejects_iff, endOf_le_iff, and_iff_right hf]
  rw [hlast, exists_last_iff]
  refine exists_congr fun g => and_congr_right fun hg => ?_
  have hbefore := (acceptedFrom_sublist text 0 before).subset hg
  rw [TextRange.lt_stop_iff hordered (start_le_of_sorted h hbefore)]
  refine or_congr_right (iff_self_and.2 fun hdisplaces => ?_)
  rw [← sublist_iff_of_start (TextRange.displaces_iff.1 hdisplaces).1, h]
  exact (List.singleton_sublist.2 hbefore).append (List.singleton_sublist.2 (List.mem_cons_self ..))

/-- Nothing is left out of fixes that fit and do not keep each other out. -/
lemma accepted_eq_sorted (hfits : ∀ f ∈ fixes, f.fits text = true)
    (hdisjoint : fixes.Pairwise fun f g => f.range.overlaps g.range = false)
    (hplaced : fixes.Pairwise fun f g => f.range.displaces g.range = false) :
    accepted text fixes = sorted fixes := by
  have hsorted : (sorted fixes).Pairwise fun f g => f.range.overlaps g.range = false :=
    (sorted_perm fixes).symm.pairwise hdisjoint
      fun h => by rw [TextRange.overlaps_comm]; exact h
  -- One prefix after the other: what has been taken of a prefix is the prefix.
  suffices h : ∀ fs rest, sorted fixes = fs ++ rest → acceptedFrom text 0 fs = fs from
    h _ [] (List.append_nil _).symm
  intro fs
  induction fs using List.reverseRecOn with
  | nil => exact fun _ _ => rfl
  | append_singleton before f ih =>
    intro rest h
    rw [List.append_assoc, List.singleton_append] at h
    have htaken := ih _ h
    have hf : f ∈ fixes := (sorted_perm fixes).subset (h ▸ by simp)
    have hstays : ¬ Rejects text (acceptedFrom text 0 before) f := by
      rw [rejects_iff h (hfits f hf), htaken]
      rintro ⟨g, hg, hoverlaps | ⟨hdisplaces, hsub⟩⟩
      · rw [h, List.pairwise_append] at hsorted
        simp [hsorted.2.2 g hg f (List.mem_cons_self ..)] at hoverlaps
      · simp [List.pairwise_iff_forall_sublist.1 hplaced hsub] at hdisplaces
    rw [(acceptedFrom_concat text before f).2 hstays, htaken]

end Fix

namespace Fixed

open EstreeLint.Lint.Fix

variable {text : Source} {fixes : List Fix}

lemma rejected_eq_zero_iff : (ofFixes text fixes).rejected = 0 ↔
    accepted text fixes = sorted fixes := by
  have hsub := acceptedFrom_sublist text 0 (sorted fixes)
  have hlength := (sorted_perm fixes).length_eq
  have hcount := hsub.length_le
  simp only [ofFixes, accepted] at *
  constructor
  · intro h
    exact hsub.eq_of_length (by omega)
  · intro h
    rw [h]
    omega

/-- **A fix that fits is left out only for a range in its way.** That is a range that it overlaps,
or one that starts where the fix is to be inserted and was reported before it. Fixes that fit and
do not overlap are all put in exactly if no insertion is reported after a range that starts where
it does, so they are all put in when the insertions are reported first. -/
theorem left_out_iff (text : Source) (fixes : List Fix) :
    (∀ before f after, sorted fixes = before ++ f :: after → f.fits text = true →
      (acceptedFrom text 0 (before ++ [f]) = acceptedFrom text 0 before ↔
        ∃ g ∈ acceptedFrom text 0 before, g.range.overlaps f.range = true ∨
          g.range.displaces f.range = true ∧ [g, f].Sublist fixes)) ∧
    ((∀ f ∈ fixes, f.fits text = true) →
      fixes.Pairwise (fun f g => f.range.overlaps g.range = false) →
        ((ofFixes text fixes).rejected = 0 ↔
          fixes.Pairwise fun f g => f.range.displaces g.range = false) ∧
        (ofFixes text (fixes.filter (·.range.isEmpty) ++
          fixes.filter (!·.range.isEmpty))).rejected = 0) := by
  refine ⟨fun before f after h hf => ?_, fun hfits hdisjoint => ⟨⟨fun hall => ?_, fun h => ?_⟩, ?_⟩⟩
  · rw [← rejects_iff h hf]
    refine ⟨fun heq => ?_, (acceptedFrom_concat text before f).1⟩
    by_contra hstays
    simp [(acceptedFrom_concat text before f).2 hstays] at heq
  · -- All are taken, so each ends where the next starts, and an insertion would come first.
    have htiled := (acceptedFrom_pairwise text 0 (sorted fixes)).1
    rw [← accepted, rejected_eq_zero_iff.1 hall] at htiled
    refine List.pairwise_iff_forall_sublist.2 fun {g f} hsub => ?_
    rw [← Bool.not_eq_true, TextRange.displaces_iff]
    rintro ⟨hstart, hempty, hlt⟩
    have hends := List.pairwise_iff_forall_sublist.1 htiled ((sublist_iff_of_start hstart).2 hsub)
    omega
  · exact rejected_eq_zero_iff.2 (accepted_eq_sorted hfits hdisjoint h)
  · have hperm := List.filter_append_perm (·.range.isEmpty) fixes
    refine rejected_eq_zero_iff.2 (accepted_eq_sorted (fun f hf => hfits f (hperm.subset hf))
      (hperm.symm.pairwise hdisjoint fun h => by rw [TextRange.overlaps_comm]; exact h) ?_)
    -- What is displaced is empty, and what displaces it is not.
    have hkinds : ∀ f g : Fix, f.range.isEmpty = true ∨ g.range.isEmpty = false →
        f.range.displaces g.range = false := by
      intro f g h
      rw [← Bool.not_eq_true, TextRange.displaces_iff]
      rintro ⟨-, hempty, hlt⟩
      simp only [TextRange.isEmpty, decide_eq_true_eq, decide_eq_false_iff_not] at h
      omega
    refine List.pairwise_append.2 ⟨List.pairwise_of_forall_mem_list ?_,
      List.pairwise_of_forall_mem_list ?_, ?_⟩
    · exact fun f hf g _ => hkinds f g (.inl (List.mem_filter.1 hf).2)
    · exact fun f _ g hg => hkinds f g (.inr (by simpa using (List.mem_filter.1 hg).2))
    · exact fun f hf g _ => hkinds f g (.inl (List.mem_filter.1 hf).2)

/-- A range of `abcdef` is replaced, and then something is to be inserted where it starts. -/
def insertionLast : List Fix := [⟨"X", ⟨2, 5⟩⟩, ⟨"!", ⟨2, 2⟩⟩]

lemma sorted_insertionLast : sorted insertionLast = [⟨"X", ⟨2, 5⟩⟩] ++ ⟨"!", ⟨2, 2⟩⟩ :: [] := by
  simp [sorted, insertionLast, List.mergeSort, List.MergeSort.Internal.splitInTwo]

theorem left_out_insertionLast :
    let text := "abcdef".toList
    let f : Fix := ⟨"!", ⟨2, 2⟩⟩
    sorted insertionLast = [⟨"X", ⟨2, 5⟩⟩] ++ f :: [] ∧ f.fits text = true ∧
      acceptedFrom text 0 ([⟨"X", ⟨2, 5⟩⟩] ++ [f]) = acceptedFrom text 0 [⟨"X", ⟨2, 5⟩⟩] ∧
      (∀ f ∈ insertionLast, f.fits text = true) ∧
      insertionLast.Pairwise (fun f g => f.range.overlaps g.range = false) ∧
      (ofFixes text [⟨"!", ⟨2, 2⟩⟩, ⟨"X", ⟨2, 5⟩⟩]).rejected = 0 := by
  intro text f
  have hfits : ∀ f ∈ insertionLast, f.fits text = true := by decide
  have hdisjoint : insertionLast.Pairwise (fun f g => f.range.overlaps g.range = false) := by
    decide
  refine ⟨sorted_insertionLast, by decide, ?_, hfits, hdisjoint,
    ((left_out_iff text insertionLast).2 hfits hdisjoint).2⟩
  exact ((left_out_iff text insertionLast).1 _ f [] sorted_insertionLast (by decide)).2
    ⟨⟨"X", ⟨2, 5⟩⟩, by decide, .inr (by decide)⟩

/-- A fix that fits can be left out although it overlaps nothing. -/
theorem displaced_not_overlapped :
    ¬ ∀ (text : Source) (fixes : List Fix), (∀ f ∈ fixes, f.fits text = true) →
      fixes.Pairwise (fun f g => f.range.overlaps g.range = false) →
        (ofFixes text fixes).rejected = 0 := by
  intro h
  have hnone := h "abcdef".toList insertionLast (by decide) (by decide)
  rw [rejected_eq_zero_iff, accepted, sorted_insertionLast] at hnone
  revert hnone
  decide

end Fixed

end Lint

end EstreeLint
