import EstreeLint.Lint.Host
import EstreeLint.Text.Split

/-!
Rules as lines of words: names that are banned, renamed or to be avoided.

Blank lines and lines that start with `#` say nothing. The rules are evaluated one after the
other, each over all identifiers of a program.
-/

namespace EstreeLint.Lint

inductive Directive where
  | ban (name : String)
  | rename (old new : String)
  | suggest (old new : String)
  /-- The evaluation fails where the name stands. -/
  | explode (name : String)
deriving DecidableEq, Repr

namespace Directive

def ofWords? : List String → Option Directive
  | ["ban", name] => some (.ban name)
  | ["rename", old, new] => some (.rename old new)
  | ["suggest", old, new] => some (.suggest old new)
  | ["explode", name] => some (.explode name)
  | _ => none

/-- The directive on a trimmed line, or none on a line that says nothing. -/
def ofLine (line : List Char) : Except HostError (List Directive) :=
  if line.isEmpty || line.head? == some '#' then .ok []
  else
    match ofWords? ((Text.words line).map String.ofList) with
    | some d => .ok [d]
    | none => .error (.load ("unknown directive: " ++ String.ofList line))

/-- The directives of a script, or the first line that is none. -/
def parse (script : String) : Except HostError (List Directive) := do
  let lines := (Text.split (· == '\n') script.toList).map Text.trim
  return (← lines.mapM ofLine).flatten

/-- The name that a directive is about. -/
def subject : Directive → String
  | .ban name | .rename name _ | .suggest name _ | .explode name => name

/-- A report on an identifier: on its line, over as many columns as its name has. -/
def reportOn (n : EsNode) (rule id description name : String) : Report :=
  let start := n.loc.start
  { rule, message := { id, description },
    location := ⟨start, ⟨start.line, start.column + Text.units name.toList⟩⟩ }

/-- A fix over as many bytes as the name of an identifier has. -/
def fixOn (n : EsNode) (name new : String) : Fix :=
  { text := new, range := ⟨n.range.start, n.range.start + Text.bytes name.toList⟩ }

/-- What a directive says of an identifier with the name it is about. -/
def reportFor (d : Directive) (n : EsNode) : Except HostError Report :=
  match d with
  | .ban name => .ok (reportOn n "ban" "banned" ("'" ++ name ++ "' is banned.") name)
  | .rename old new =>
    .ok { reportOn n "rename" "rename" ("Rename '" ++ old ++ "' to '" ++ new ++ "'.") old with
      fix := some (fixOn n old new) }
  | .suggest old new =>
    .ok { reportOn n "suggest" "avoid" ("Avoid '" ++ old ++ "'.") old with
      suggestions := [{ message := ⟨"replace", "Use '" ++ new ++ "'."⟩,
                        fixes := [fixOn n old new] }] }
  | .explode name => .error (.evaluation ("rule 'explode': found '" ++ name ++ "'"))

/-- The identifiers of a program, in preorder. -/
def identifiers (program : EsNode) : List EsNode :=
  program.nodes.filter (·.type == .identifier)

/-- What a directive reports on a program. -/
def reports (program : EsNode) (d : Directive) : Except HostError (List Report) :=
  ((identifiers program).filter (·.name? == some d.subject)).mapM d.reportFor

end Directive

namespace Host

/-- A host for directives. -/
def ofDirectives (directives : List Directive) : Host where
  evaluate subject := do
    return (← directives.mapM (Directive.reports subject.program)).flatten

/-- Loads a script of directives. -/
def load (script : String) : Except HostError Host := ofDirectives <$> Directive.parse script

end Host

end EstreeLint.Lint
