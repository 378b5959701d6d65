import EstreeLint.Text.Split

/-!
The form in which a run is logged.
-/

namespace EstreeLint.Command

inductive LogFormat where
  | text | tree | json
deriving DecidableEq, Repr

namespace LogFormat

def name : LogFormat → String
  | .text => "Text"
  | .tree => "Tree"
  | .json => "Json"

/-- Reads a form. All that is not known means plain text. -/
def parse (value : String) : LogFormat :=
  match String.ofList (Text.lowered (Text.trim value.toList)) with
  | "tree" => .tree
  | "json" => .json
  | _ => .text

end LogFormat

end EstreeLint.Command
