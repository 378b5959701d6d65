import EstreeLint.Text.Basic
import EstreeLint.Text.Blank

/-!
Lines of a source text and the two ways between byte offsets and positions.

A position is a line and a column, both from 0, the column in UTF-16 units. Line feed, a
carriage return with or without a line feed, U+2028 and U+2029 end a line.
-/

namespace EstreeLint

structure Position where
  line : Nat
  character : Nat
deriving DecidableEq, Repr

/-- Offsets at which the lines of a text start. -/
structure LineMap where
  starts : List Nat
deriving DecidableEq, Repr

namespace LineMap

/-- Starts of the lines after the first, for text that begins at byte `pos`. -/
def laterStarts : Nat → List Char → List Nat
  | _, [] => []
  | pos, c :: cs =>
    let next := pos + c.utf8Size
    if Text.isLineBreak c && !(c == '\r' && cs.head? == some '\n') then
      next :: laterStarts next cs
    else laterStarts next cs

def build (text : Source) : LineMap := ⟨0 :: laterStarts 0 text⟩

def lineCount (m : LineMap) : Nat := m.starts.length

def lineStart? (m : LineMap) (line : Nat) : Option Nat := m.starts[line]?

/-- The last line that starts at or before `offset`. -/
def lineOf (m : LineMap) (offset : Nat) : Nat := m.starts.countP (· ≤ offset) - 1

def positionOf (m : LineMap) (text : Source) (offset : Nat) : Position :=
  let line := m.lineOf offset
  let stop := min offset (Text.bytes text)
  let start := min ((m.lineStart? line).getD 0) stop
  ⟨line, Text.units (Text.slice text start stop)⟩

/-- Bytes of the characters that lie wholly within the first `column` units of a line. -/
def columnBytes : List Char → Nat → Nat
  | [], _ => 0
  | c :: cs, column =>
    if Text.isLineBreak c || column < Text.unit c then 0
    else c.utf8Size + columnBytes cs (column - Text.unit c)

/-- The offset of a position. A column past the end of its line means the line's end. -/
def offsetOf? (m : LineMap) (text : Source) (p : Position) : Option Nat :=
  (m.lineStart? p.line).map fun start =>
    let stop := (m.lineStart? (p.line + 1)).getD (Text.bytes text)
    start + columnBytes (Text.slice text start stop) p.character

end LineMap

/-- A line counted from 1 and a column counted from 0 in UTF-16 units. -/
structure LineColumn where
  line : Nat
  column : Nat
deriving DecidableEq, Repr

/-- Where a node starts and stops, for a reader. -/
structure Location where
  start : LineColumn
  stop : LineColumn
deriving DecidableEq, Repr

namespace LineMap

def lineColumn (m : LineMap) (text : Source) (offset : Nat) : LineColumn :=
  let p := m.positionOf text offset
  ⟨p.line + 1, p.character⟩

end LineMap

end EstreeLint
