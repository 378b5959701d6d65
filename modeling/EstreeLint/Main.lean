import EstreeLint.Command.Arguments
import EstreeLint.Command.FileTree
import EstreeLint.Command.Listing
import EstreeLint.Lint.Directive

/-!
The command line: lints files and directories with the rules of a script.
-/

namespace EstreeLint.Main

open Lint Command

def usage : String :=
  "Usage: estree-lint --rules <RULES> [OPTIONS] <PATHS>...\n\n" ++
    "  -r, --rules <RULES>      script with the rules to run\n" ++
    "  -j, --workers <WORKERS>  number of workers\n" ++
    "      --single-threaded    lint all files with one worker\n" ++
    "      --isolate            go on when a file fails\n" ++
    "      --fix                apply fixes and write the results back\n" ++
    "      --no-color           show no colors\n" ++
    "      --compact            show no source lines\n" ++
    "  -h, --help               show this help\n" ++
    "  -V, --version            show the version"

/-- What is said of arguments that are not accepted. -/
def complaint : ArgumentError → String
  | .displayHelp => usage
  | .displayVersion => "estree-lint"
  | .argumentConflict => "error: an option is given twice"
  | .valueValidation => "error: a value is not a number of workers"
  | .invalidValue => "error: a value is missing or empty"
  | .missingRequiredArgument => "error: the rules and at least one path are required"
  | .tooManyValues => "error: an option that takes no value is given one"
  | .unknownArgument => "error: an option is not known"

/-- The entry at a path on the disk, with all below it. -/
partial def readTree (name path : String) : IO FileTree := do
  let place := (← IO.currentDir) / path
  if ← place.isDir then
    let entries ← (← place.readDir).toList.mapM fun entry =>
      if FileTree.isSkipped entry.fileName.toList then pure none
      else some <$> readTree entry.fileName
        (String.ofList (Path.join path.toList entry.fileName.toList))
    return FileTree.directory name.toList (entries.filterMap fun entry => entry)
  else return FileTree.file name.toList (← IO.FS.readFile path)

/-- The entries that paths lead to. -/
def readPaths (paths : List String) : IO (List (List Char × FileTree)) := do
  let found ← paths.mapM fun (path : String) => do
    if ← ((← IO.currentDir) / path).pathExists then
      return some (path.toList, ← readTree path path)
    else return none
  return found.filterMap fun entry => entry

def environment : IO RunOptions.Environment := do
  return { workers := ← IO.getEnv "ESTREE_LINT_WORKERS"
           singleThreaded := ← IO.getEnv "ESTREE_LINT_SINGLE_THREADED"
           policy := ← IO.getEnv "ESTREE_LINT_FAILURE_POLICY" }

/-- Applies fixes and writes the files that they change. -/
def writeFixes (files : List SourceFile) (ds : List Diagnostic) : IO (List Diagnostic) := do
  let repairs := Repair.ofFiles files ds
  for r in repairs do
    if r.fixed.anyApplied then IO.FS.writeFile r.file.name (String.ofList r.fixed.text)
    if let some notice := r.notice? then IO.eprintln notice
  return repairs.flatMap (·.remaining)

def lintPaths (a : Arguments) : IO UInt8 := do
  let options := a.runOptions (RunOptions.ofEnvironment { workers := 1 } (← environment))
  let script ← IO.FS.readFile a.rules
  let trees ← readPaths a.paths
  match FileTree.collect (trees.lookup ·) (a.paths.map String.toList) with
  | .error reason =>
    IO.eprintln ("Error: " ++ reason)
    return 1
  | .ok found =>
    let files := found.map fun (path, content) =>
      SourceFile.parse (String.ofList path) content.toList
    let outcome := run .ok Host.load script files options
    for line in errorLines outcome.result do IO.eprintln line
    let diagnostics := sortDiagnostics outcome.delivered
    let remaining ← if a.fix then writeFixes files diagnostics else pure diagnostics
    let color ← if a.noColor then pure false else (← IO.getStdout).isTty
    for line in listing { color, snippets := !a.compact } files remaining do IO.println line
    return exitCode outcome.result.toBool.not remaining

end EstreeLint.Main

open EstreeLint.Command EstreeLint.Main in
/-- Lints what the arguments name. -/
def main (arguments : List String) : IO UInt32 := do
  match Arguments.parse arguments with
  | .ok a => return (← lintPaths a).toUInt32
  | .error e =>
    let asked := e == .displayHelp || e == .displayVersion
    if asked then IO.println (complaint e) else IO.eprintln (complaint e)
    return if asked then 0 else 2
