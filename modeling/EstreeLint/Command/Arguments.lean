import EstreeLint.Lint.Options

/-!
The arguments of the command line.

An option may have its value attached to it or in the argument that follows. A value is checked
when the next argument shows that it is complete, so an argument that is not known is an error
before the value in front of it is.
-/

namespace EstreeLint.Command

open Lint (RunOptions readCount?)

/-- Why arguments are not accepted. Asking for help or for the version counts as such. -/
inductive ArgumentError where
  | displayHelp | displayVersion | argumentConflict | valueValidation | invalidValue
  | missingRequiredArgument | tooManyValues | unknownArgument
deriving DecidableEq, Repr

/-- An option with a value. -/
inductive Setting where
  | rules | workers
deriving DecidableEq, Repr

/-- An option without a value. -/
inductive Flag where
  | singleThreaded | isolate | fix | noColor | compact | help | version
deriving DecidableEq, Repr

inductive OptionName where
  | setting (s : Setting)
  | flag (f : Flag)
deriving DecidableEq, Repr

namespace OptionName

def ofLong? : String → Option OptionName
  | "rules" => some (.setting .rules)
  | "workers" => some (.setting .workers)
  | "single-threaded" | "singleThreaded" => some (.flag .singleThreaded)
  | "isolate" => some (.flag .isolate)
  | "fix" => some (.flag .fix)
  | "no-color" => some (.flag .noColor)
  | "compact" => some (.flag .compact)
  | "help" => some (.flag .help)
  | "version" => some (.flag .version)
  | _ => none

def ofShort? : Char → Option OptionName
  | 'r' => some (.setting .rules)
  | 'j' => some (.setting .workers)
  | 'h' => some (.flag .help)
  | 'V' => some (.flag .version)
  | _ => none

end OptionName

structure Arguments where
  rules : String
  workers : Option Nat
  singleThreaded : Bool
  isolate : Bool
  fix : Bool
  noColor : Bool
  compact : Bool
  paths : List String
deriving DecidableEq, Repr

/-- Values that have been read and not yet checked. -/
inductive Pending where
  | setting (s : Setting) (value : Option (List Char))
  | paths (values : List (List Char))
deriving DecidableEq, Repr

/-- What the arguments so far have set. -/
structure Reading where
  rules : Option (List Char) := none
  workers : Option Nat := none
  flags : List Flag := []
  paths : List (List Char) := []
  pending : Option Pending := none
  /-- Only paths follow. -/
  pathsOnly : Bool := false
deriving DecidableEq, Repr

namespace Reading

/-- Gives a setting its value. -/
def set (r : Reading) (s : Setting) (value : List Char) : Except ArgumentError Reading :=
  match s with
  | .rules =>
    if r.rules.isSome then .error .argumentConflict
    else if value.isEmpty then .error .invalidValue
    else .ok { r with rules := some value }
  | .workers =>
    if r.workers.isSome then .error .argumentConflict
    else
      match readCount? value with
      | some n => .ok { r with workers := some n }
      | none => .error .valueValidation

/-- Checks the values that are pending. -/
def resolve (r : Reading) : Except ArgumentError Reading :=
  let rest := { r with pending := none }
  match r.pending with
  | none => .ok rest
  | some (.setting _ none) => .error .invalidValue
  | some (.setting s (some value)) => rest.set s value
  | some (.paths values) =>
    if values.any List.isEmpty then .error .invalidValue
    else .ok { rest with paths := r.paths ++ values }

def setFlag (r : Reading) (f : Flag) : Except ArgumentError Reading := do
  let r ← r.resolve
  match f with
  | .help => .error .displayHelp
  | .version => .error .displayVersion
  | f =>
    if r.flags.contains f then .error .argumentConflict else .ok { r with flags := f :: r.flags }

/-- Takes up a setting, with an attached value or without. -/
def startSetting (r : Reading) (s : Setting) (attached : Option (List Char)) :
    Except ArgumentError Reading := do
  let r ← r.resolve
  match attached with
  | some value => r.set s value
  | none => .ok { r with pending := some (.setting s none) }

/-- An option that starts with two dashes, without them. -/
def long (r : Reading) (body : List Char) : Except ArgumentError Reading :=
  let name := body.takeWhile (· != '=')
  let attached := if name.length < body.length then some (body.drop (name.length + 1)) else none
  match OptionName.ofLong? (String.ofList name) with
  | none => .error .unknownArgument
  | some (.setting s) => r.startSetting s attached
  | some (.flag f) => if attached.isSome then .error .tooManyValues else r.setFlag f

/-- An option that starts with one dash, without it. The flags with such a name end the reading,
so nothing is read after them. -/
def short (r : Reading) (c : Char) (rest : List Char) : Except ArgumentError Reading :=
  match OptionName.ofShort? c with
  | none => .error .unknownArgument
  | some (.flag f) => r.setFlag f
  | some (.setting s) =>
    r.startSetting s <| match rest with
      | [] => none
      | '=' :: value => some value
      | value => some value

/-- A value that no dash starts: of the setting that waits for one, or else a path. -/
def value (r : Reading) (v : List Char) : Except ArgumentError Reading :=
  match r.pending, r.pathsOnly with
  | some (.setting s none), false => .ok { r with pending := some (.setting s (some v)) }
  | some (.paths values), _ => .ok { r with pending := some (.paths (values ++ [v])) }
  | _, _ => do
    let r ← r.resolve
    return { r with pending := some (.paths [v]) }

/-- Reads one argument. -/
def read (r : Reading) (argument : List Char) : Except ArgumentError Reading :=
  if r.pathsOnly then r.value argument
  else
    match argument with
    | ['-', '-'] => .ok { r with pathsOnly := true }
    | '-' :: '-' :: body => r.long body
    | '-' :: c :: rest => r.short c rest
    | v => r.value v

/-- The arguments when all have been read. -/
def finish (r : Reading) : Except ArgumentError Arguments := do
  let r ← r.resolve
  match r.rules with
  | none => .error .missingRequiredArgument
  | some rules =>
    if r.paths.isEmpty then .error .missingRequiredArgument
    else
      return {
        rules := String.ofList rules
        workers := r.workers
        singleThreaded := r.flags.contains .singleThreaded
        isolate := r.flags.contains .isolate
        fix := r.flags.contains .fix
        noColor := r.flags.contains .noColor
        compact := r.flags.contains .compact
        paths := r.paths.map String.ofList }

end Reading

namespace Arguments

/-- Reads the arguments of a command line. -/
def parse (arguments : List String) : Except ArgumentError Arguments := do
  (← arguments.foldlM (fun r a => r.read a.toList) ({} : Reading)).finish

/-- Options with what the command line says. -/
def runOptions (a : Arguments) (base : RunOptions) : RunOptions :=
  let options := a.workers.elim base base.withWorkers
  let options := if a.singleThreaded then options.withSingleThreaded true else options
  if a.isolate then options.withPolicy .isolate else options

end Arguments

end EstreeLint.Command
