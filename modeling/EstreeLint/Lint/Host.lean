import EstreeLint.Estree.Conversion
import EstreeLint.Estree.Token
import EstreeLint.Lint.Report

/-!
Hosts, which evaluate rules over one file at a time, and the linting of a file with one.
-/

namespace EstreeLint.Lint

/-- Why a host cannot do its work. -/
inductive HostError where
  /-- The script of the rules does not load. -/
  | load (reason : String)
  /-- The script does not define what is called. -/
  | missingEntryPoint (name : String)
  /-- A rule fails. -/
  | evaluation (reason : String)
  /-- The program cannot be handed to the script. -/
  | conversion (reason : String)
deriving DecidableEq, Repr

namespace HostError

def message : HostError → String
  | .load reason => "failed to load rule script: " ++ reason
  | .missingEntryPoint name => "rule script does not define \x60" ++ name ++ "\x60"
  | .evaluation reason => "rule evaluation failed: " ++ reason
  | .conversion reason => "could not pass the program to the script: " ++ reason

end HostError

/-- What a host is handed for a file. -/
structure Subject where
  text : Source
  program : EsNode
  tokens : List Estree.Token
  comments : List Estree.Comment

/-- A host with its rules loaded. It answers with its reports in order, or fails. -/
structure Host where
  evaluate : Subject → Except HostError (List Report)

/-- Why a file cannot be linted. -/
inductive LintError where
  | parse (file reason : String)
  | convert (file : String) (cause : Estree.ConvertError)
  | host (file : String) (cause : HostError)
deriving DecidableEq, Repr

namespace LintError

def file : LintError → String
  | .parse file _ | .convert file _ | .host file _ => file

def message : LintError → String
  | .parse file reason => file ++ ": syntax error: " ++ reason
  | .convert file cause => file ++ ": " ++ cause.message
  | .host file cause => file ++ ": " ++ cause.message

end LintError

/-- The text that rules see: a line that starts with `#!` reads as a comment. -/
def scriptText : Source → Source
  | '#' :: '!' :: rest => '/' :: '/' :: rest
  | text => text

namespace Subject

/-- What a host is handed for a file without errors. -/
def ofFile (file : SourceFile) : Except LintError Subject :=
  match file.errors.head? with
  | some first => .error (.parse file.name first.fault.message)
  | none =>
    match Estree.Conversion.ofFile file with
    | .error e => .error (.convert file.name e)
    | .ok conversion =>
      let tokens := Estree.tokensOfFile file
      .ok { text := scriptText file.text, program := conversion.program, tokens,
            comments := Estree.commentsOfFile file tokens }

end Subject

/-- Lints a file. The diagnostics stand in the order in which they were reported. -/
def lintFile (host : Host) (file : SourceFile) : Except LintError (List Diagnostic) :=
  match Subject.ofFile file with
  | .error e => .error e
  | .ok subject =>
    match host.evaluate subject with
    | .error e => .error (.host file.name e)
    | .ok reports => .ok (reports.map (Report.toDiagnostic file.name file.text file.lines))

end EstreeLint.Lint
