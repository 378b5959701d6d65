import EstreeLint.Span
import EstreeLint.Text.Basic

/-!
What a rule says about a file: a message for a range, with fixes and suggestions.
-/

namespace EstreeLint.Lint

structure Message where
  id : String
  description : String
deriving DecidableEq, Repr

/-- A text in place of a range of the source. -/
structure Fix where
  text : String
  range : TextRange
deriving DecidableEq, Repr

/-- Fixes that are offered, and never applied unasked. -/
structure Suggestion where
  message : Message
  fixes : List Fix
deriving DecidableEq, Repr

structure Diagnostic where
  rule : String
  file : String
  range : TextRange
  message : Message
  fixes : List Fix := []
  suggestions : List Suggestion := []
deriving DecidableEq, Repr

namespace Diagnostic

def hasFixes (d : Diagnostic) : Bool := !d.fixes.isEmpty

end Diagnostic

end EstreeLint.Lint
