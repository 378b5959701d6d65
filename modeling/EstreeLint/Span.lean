import EstreeLint.Text.Basic

/-!
Two kinds of byte range. A `Span` is in order by construction and belongs to a node or token;
a `TextRange` is what a report or fix asks for and may be reversed.
-/

namespace EstreeLint

/-- The bytes from `start` to `stop`. -/
structure Span where
  start : Nat
  stop : Nat
  ordered : start ≤ stop
deriving DecidableEq, Repr

namespace Span

/-- The span between two offsets, empty at the first if the second lies before it. -/
def between (start stop : Nat) : Span := ⟨start, max start stop, Nat.le_max_left ..⟩

def size (s : Span) : Nat := s.stop - s.start

def isEmpty (s : Span) : Bool := s.start == s.stop

def contains (s t : Span) : Bool := s.start ≤ t.start && t.stop ≤ s.stop

/-- The least span over both. -/
def widen (s t : Span) : Span :=
  ⟨min s.start t.start, max s.stop t.stop, by have := s.ordered; omega⟩

def slice (s : Span) (text : Source) : String := Text.sliceString text s.start s.stop

theorem contains_widen_left (s t : Span) : (s.widen t).contains s = true :=
  (Bool.and_eq_true _ _).mpr
    ⟨decide_eq_true (Nat.min_le_left ..), decide_eq_true (Nat.le_max_left ..)⟩

theorem contains_widen_right (s t : Span) : (s.widen t).contains t = true :=
  (Bool.and_eq_true _ _).mpr
    ⟨decide_eq_true (Nat.min_le_right ..), decide_eq_true (Nat.le_max_right ..)⟩

end Span

/-- A byte range as a rule reports it. -/
structure TextRange where
  start : Nat
  stop : Nat
deriving DecidableEq, Repr

namespace TextRange

def size (r : TextRange) : Nat := r.stop - r.start

def isEmpty (r : TextRange) : Bool := r.stop ≤ r.start

/-- Ranges that touch do not overlap. -/
def overlaps (r s : TextRange) : Bool := r.start < s.stop && s.start < r.stop

end TextRange

end EstreeLint
