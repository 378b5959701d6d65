import EstreeLint.Lint.Diagnostic

/-!
Fixes put into a source text.

The fixes are taken in the order of their starts, those that start together in the order given.
A fix is accepted if its range can be cut out of the text and starts at or after the end of the
one accepted before it. The new text is the old one with the accepted ranges replaced.
-/

namespace EstreeLint.Lint

namespace Fix

/-- The range of a fix can be cut out of a text: it is not reversed, and both ends stand between
characters. -/
def fits (text : Source) (f : Fix) : Bool :=
  f.range.start ≤ f.range.stop && (Text.dropBytes? f.range.start text).isSome &&
    (Text.dropBytes? f.range.stop text).isSome

/-- Fixes in the order of their starts. -/
def sorted (fixes : List Fix) : List Fix :=
  fixes.mergeSort fun f g => f.range.start ≤ g.range.start

/-- The fixes that are accepted one after the other, from an offset on. -/
def acceptedFrom (text : Source) (last : Nat) : List Fix → List Fix
  | [] => []
  | f :: fs =>
    if f.fits text && last ≤ f.range.start then f :: acceptedFrom text f.range.stop fs
    else acceptedFrom text last fs

/-- The fixes that are accepted, in the order of the text. -/
def accepted (text : Source) (fixes : List Fix) : List Fix := acceptedFrom text 0 (sorted fixes)

/-- The text from an offset on, with the ranges of the fixes replaced. -/
def splice (text : Source) (cursor : Nat) : List Fix → List Char
  | [] => Text.suffixAt text cursor
  | f :: fs =>
    Text.slice text cursor f.range.start ++ f.text.toList ++ splice text f.range.stop fs

end Fix

/-- A text after fixes, and what has become of them. -/
structure Fixed where
  text : Source
  applied : Nat
  rejected : Nat
deriving DecidableEq, Repr

namespace Fixed

/-- Puts fixes into a text. -/
def ofFixes (text : Source) (fixes : List Fix) : Fixed :=
  let accepted := Fix.accepted text fixes
  { text := Fix.splice text 0 accepted, applied := accepted.length,
    rejected := fixes.length - accepted.length }

/-- Puts the fixes of diagnostics into a text. Suggestions are left alone. -/
def ofDiagnostics (text : Source) (diagnostics : List Diagnostic) : Fixed :=
  ofFixes text (diagnostics.flatMap (·.fixes))

def anyApplied (f : Fixed) : Bool := 0 < f.applied

end Fixed

end EstreeLint.Lint
