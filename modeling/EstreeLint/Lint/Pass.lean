import EstreeLint.Lint.Fix
import EstreeLint.Lint.Host

/-!
Linting and fixing a text in passes, each on what the one before has left.
-/

namespace EstreeLint.Lint

/-- What a pass has found and what it has made of the text. -/
structure Pass where
  diagnostics : List Diagnostic
  fixed : Fixed
deriving DecidableEq, Repr

namespace Pass

/-- One pass over a text. -/
def ofText (host : Host) (file : String) (text : Source) : Except LintError Pass :=
  match lintFile host (SourceFile.parse file text) with
  | .error e => .error e
  | .ok diagnostics => .ok { diagnostics, fixed := Fixed.ofDiagnostics text diagnostics }

/-- A number of passes over a text. A pass that fails is the last. -/
def many (host : Host) (file : String) : Nat → Source → List (Except LintError Pass)
  | 0, _ => []
  | n + 1, text =>
    match ofText host file text with
    | .error e => [.error e]
    | .ok pass => .ok pass :: many host file n pass.fixed.text

end Pass

end EstreeLint.Lint
