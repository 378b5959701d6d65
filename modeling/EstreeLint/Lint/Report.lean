import EstreeLint.Lint.Diagnostic
import EstreeLint.LineMap

/-!
Reports as a script makes them, by lines and columns.
-/

namespace EstreeLint.Lint

/-- The least number that is too large for an offset. -/
def offsetLimit : Nat := UInt32.size

namespace Fix

/-- A fix from the numbers that a script gives. A negative number stands for no fix. -/
def ofParts? (text : String) (start stop : Int) : Option Fix :=
  if 0 ≤ start && 0 ≤ stop && start < offsetLimit && stop < offsetLimit then
    some { text, range := ⟨start.toNat, stop.toNat⟩ }
  else none

end Fix

structure Report where
  rule : String
  location : Location
  message : Message
  fix : Option Fix := none
  suggestions : List Suggestion := []
deriving DecidableEq, Repr

namespace Report

/-- The offset of a line and column. A line that does not exist means the end of the text. -/
def offsetOf (lines : LineMap) (text : Source) (p : LineColumn) : Nat :=
  (lines.offsetOf? text ⟨p.line - 1, p.column⟩).getD (Text.bytes text)

/-- The range that a report names. It does not stop before it starts. -/
def rangeIn (lines : LineMap) (text : Source) (l : Location) : TextRange :=
  let start := offsetOf lines text l.start
  ⟨start, max (offsetOf lines text l.stop) start⟩

/-- The diagnostic of a report, by offsets. -/
def toDiagnostic (file : String) (text : Source) (lines : LineMap) (r : Report) : Diagnostic where
  rule := r.rule
  file := file
  range := rangeIn lines text r.location
  message := r.message
  fixes := r.fix.toList
  suggestions := r.suggestions

end Report

end EstreeLint.Lint
