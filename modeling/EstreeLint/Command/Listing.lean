import EstreeLint.Lint.Fix
import EstreeLint.Lint.Render
import EstreeLint.Lint.Run

/-!
What a run shows at the command line, and the code it exits with.
-/

namespace EstreeLint.Command

open Lint

/-- Diagnostics are listed by file, then by where they start and stop. -/
def compareDiagnostics (a b : Diagnostic) : Ordering :=
  (compare (a.file.toList.map Char.toNat) (b.file.toList.map Char.toNat)).then
    ((compare a.range.start b.range.start).then (compare a.range.stop b.range.stop))

def sortDiagnostics (ds : List Diagnostic) : List Diagnostic :=
  ds.mergeSort fun a b => (compareDiagnostics a b).isLE

/-- The diagnostics of a file. -/
def diagnosticsOf (file : SourceFile) (ds : List Diagnostic) : List Diagnostic :=
  ds.filter (·.file == file.name)

/-- A file after its fixes, with the diagnostics that have none. -/
structure Repair where
  file : SourceFile
  fixed : Fixed
  remaining : List Diagnostic

namespace Repair

/-- The repairs of the files that have diagnostics. -/
def ofFiles (files : List SourceFile) (ds : List Diagnostic) : List Repair :=
  files.filterMap fun file =>
    match diagnosticsOf file ds with
    | [] => none
    | own =>
      some { file, fixed := Fixed.ofDiagnostics file.text own,
             remaining := own.filter (!·.hasFixes) }

/-- What is said of fixes that were left out. -/
def notice? (r : Repair) : Option String :=
  if 0 < r.fixed.rejected then
    some (r.file.name ++ ": " ++ toString r.fixed.rejected ++
      " overlapping fix(es) skipped, run --fix again")
  else none

end Repair

/-- The lines that show diagnostics, file by file, and how many there are. -/
def listing (format : Format) (files : List SourceFile) (ds : List Diagnostic) : List String :=
  let shown := files.filterMap fun file =>
    match diagnosticsOf file ds with
    | [] => none
    | own => some (format.render file own)
  if ds.isEmpty then shown else shown ++ ["\n" ++ toString ds.length ++ " problem(s)"]

/-- The errors that a run is told of. -/
def errorLines : Except RunError Summary → List String
  | .ok _ => []
  | .error (.isolated failures) => failures.map fun e => "error: " ++ e.message
  | .error e => ["error: " ++ e.message]

/-- The code that a run exits with: failed, with diagnostics, or clean. -/
def exitCode (failed : Bool) (remaining : List Diagnostic) : UInt8 :=
  if failed then 2 else if remaining.isEmpty then 0 else 1

end EstreeLint.Command
