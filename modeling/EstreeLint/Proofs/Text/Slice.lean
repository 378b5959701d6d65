import EstreeLint.Text.Basic
import Mathlib.Tactic.Common

/-!
Pieces of a text between boundaries.

A boundary is the end of a run of whole characters, so two boundaries in order cut the text into
three runs, and what is sliced out between them is the run in the middle.
-/

namespace EstreeLint.Text

variable {text : Source} {start stop : Nat}

lemma isBoundary_iff : IsBoundary text start ↔ ∃ u v, text = u ++ v ∧ start = bytes u := by
  simp only [IsBoundary, Option.isSome_iff_exists, dropBytes?_eq_some_iff]
  exact ⟨fun ⟨v, u, h⟩ => ⟨u, v, h⟩, fun ⟨u, v, h⟩ => ⟨v, u, h⟩⟩

lemma IsBoundary.le_bytes (h : IsBoundary text start) : start ≤ bytes text := by
  obtain ⟨u, v, rfl, rfl⟩ := isBoundary_iff.1 h
  rw [bytes_append]
  exact Nat.le_add_right ..

lemma isBoundary_zero (text : Source) : IsBoundary text 0 :=
  isBoundary_iff.2 ⟨[], text, rfl, rfl⟩

lemma takeBytes?_append (u v : List Char) : takeBytes? (bytes u) (u ++ v) = some u := by
  induction u with
  | nil => cases v <;> rfl
  | cons c u ih =>
    obtain ⟨k, hk⟩ := Nat.exists_eq_succ_of_ne_zero (utf8Size_ne_zero c)
    have hsum : c.utf8Size + bytes u = (k + bytes u) + 1 := by omega
    have hrest : k + bytes u + 1 - c.utf8Size = bytes u := by omega
    simp only [bytes_cons, hsum, List.cons_append, takeBytes?, hrest, ih]
    rw [if_pos (by omega)]
    rfl

/-- Two prefixes of a text are one inside the other. -/
lemma append_of_le {u v u' v' : List Char} (h : u ++ v = u' ++ v') (hle : bytes u ≤ bytes u') :
    ∃ w, u' = u ++ w := by
  induction u generalizing u' with
  | nil => exact ⟨u', rfl⟩
  | cons c u ih =>
    cases u' with
    | nil =>
      have hpos := c.utf8Size_pos
      simp only [bytes_cons, bytes_nil] at hle
      omega
    | cons c' u' =>
      obtain ⟨rfl, htail⟩ := List.cons.inj h
      obtain ⟨w, rfl⟩ := ih htail (by simpa using hle)
      exact ⟨w, rfl⟩

/-- From one boundary on, a text goes on to any later one. -/
lemma exists_cut {u v : List Char} (h : IsBoundary (u ++ v) stop) (hle : bytes u ≤ stop) :
    ∃ w v', v = w ++ v' ∧ stop = bytes u + bytes w := by
  obtain ⟨u', v', htext, rfl⟩ := isBoundary_iff.1 h
  obtain ⟨w, rfl⟩ := append_of_le htext hle
  rw [List.append_assoc, List.append_cancel_left_eq] at htext
  exact ⟨w, v', htext, bytes_append u w⟩

lemma slice?_append (u w v : List Char) :
    slice? (u ++ (w ++ v)) (bytes u) (bytes u + bytes w) = some w := by
  rw [slice?, if_pos (Nat.le_add_right ..), dropBytes?_append, Option.bind_some,
    Nat.add_sub_cancel_left, takeBytes?_append]

@[simp] lemma suffixAt_zero (text : Source) : suffixAt text 0 = text := by
  simpa [suffixAt] using congrArg (Option.getD · []) (dropBytes?_append [] text)

end EstreeLint.Text
