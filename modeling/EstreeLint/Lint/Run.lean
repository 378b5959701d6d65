import EstreeLint.Lint.Host
import EstreeLint.Lint.Options

/-!
Runs over many files, with workers that share a queue.

Each worker makes a host of its own and then takes one file after the other until none is left or
the run is aborted. A run is a machine: a step is one action of one worker on what the workers
share, and a schedule says who moves when. `RunState.follow` runs a schedule; `run` follows one in
which the workers take turns until all have finished.
-/

namespace EstreeLint.Lint

/-- Why a run has no summary. -/
inductive RunError where
  | bundle (reason : String)
  | hostInit (cause : HostError)
  | file (cause : LintError)
  /-- The files that failed while the run went on. -/
  | isolated (failures : List LintError)
deriving DecidableEq, Repr

namespace RunError

def message : RunError → String
  | .bundle reason => "bundling failed: " ++ reason
  | .hostInit cause => "could not start a scripting host: " ++ cause.message
  | .file cause => cause.message
  | .isolated failures => toString failures.length ++ " file(s) failed to lint"

end RunError

/-- Totals of a run without failures. -/
structure Summary where
  files : Nat
  diagnostics : Nat
  workers : Nat
deriving DecidableEq, Repr

/-- What the workers of a run are given. -/
structure Job where
  files : List SourceFile
  policy : FailurePolicy
  /-- What a worker gets when it asks for a host. -/
  create : Nat → Except HostError Host

/-- What the workers share. -/
structure Shared where
  /-- The next file to be taken. -/
  next : Nat := 0
  aborted : Bool := false
  /-- Hosts that have been asked for. -/
  hosts : Nat := 0
  linted : Nat := 0
  reported : Nat := 0
  /-- Diagnostics that have been delivered, in order, each with the place of its file. -/
  delivered : List (Nat × Diagnostic) := []

/-- What a worker keeps from file to file. -/
structure Desk where
  host : Host
  /-- The failures it has set aside, with the places of their files. -/
  isolated : List (Nat × LintError) := []

/-- What a worker is about to do. -/
inductive Phase where
  /-- Ask for a host. -/
  | starting
  /-- Look whether the run is aborted. -/
  | looking (desk : Desk)
  /-- Take the next file. -/
  | taking (desk : Desk)
  | linting (desk : Desk) (index : Nat)
  /-- Count the file. -/
  | counting (desk : Desk) (index : Nat) (diagnostics : List Diagnostic)
  /-- Count its diagnostics. -/
  | adding (desk : Desk) (index : Nat) (diagnostics : List Diagnostic)
  /-- Deliver the diagnostics that are left. -/
  | delivering (desk : Desk) (index : Nat) (rest : List Diagnostic)
  /-- Abort the run. -/
  | aborting (cause : RunError)
  | finished (outcome : Except RunError (List (Nat × LintError)))

namespace Phase

def outcome? : Phase → Option (Except RunError (List (Nat × LintError)))
  | .finished outcome => some outcome
  | _ => none

/-- What a worker does when a file has failed. -/
def afterFailure (job : Job) (desk : Desk) (index : Nat) (e : LintError) : Phase :=
  match job.policy with
  | .failFast => .aborting (.file e)
  | .isolate => .looking { desk with isolated := desk.isolated ++ [(index, e)] }

/-- One action of worker `w`. -/
def step (job : Job) (w : Nat) (phase : Phase) (s : Shared) : Phase × Shared :=
  match phase with
  | .starting =>
    let s := { s with hosts := s.hosts + 1 }
    match job.create w with
    | .ok host => (.looking { host }, s)
    | .error e => (.aborting (.hostInit e), s)
  | .looking desk =>
    if s.aborted then (.finished (.ok desk.isolated), s) else (.taking desk, s)
  | .taking desk =>
    let phase :=
      if s.next < job.files.length then .linting desk s.next else .finished (.ok desk.isolated)
    (phase, { s with next := s.next + 1 })
  | .linting desk index =>
    match job.files[index]? with
    | none => (.looking desk, s)
    | some file =>
      match lintFile desk.host file with
      | .ok diagnostics => (.counting desk index diagnostics, s)
      | .error e => (afterFailure job desk index e, s)
  | .counting desk index diagnostics =>
    (.adding desk index diagnostics, { s with linted := s.linted + 1 })
  | .adding desk index diagnostics =>
    (.delivering desk index diagnostics, { s with reported := s.reported + diagnostics.length })
  | .delivering desk _ [] => (.looking desk, s)
  | .delivering desk index (d :: rest) =>
    (.delivering desk index rest, { s with delivered := s.delivered ++ [(index, d)] })
  | .aborting cause => (.finished (.error cause), { s with aborted := true })
  | .finished outcome => (.finished outcome, s)

end Phase

/-- A run under way. -/
structure RunState where
  shared : Shared := {}
  workers : List Phase

namespace RunState

/-- A run in which no worker has moved. -/
def init (workers : Nat) : RunState where
  workers := List.replicate workers .starting

/-- Lets one worker act. -/
def step (job : Job) (s : RunState) (w : Nat) : RunState :=
  match s.workers[w]? with
  | none => s
  | some phase =>
    let (phase, shared) := phase.step job w s.shared
    { shared, workers := s.workers.set w phase }

/-- Lets the workers act as a schedule says. -/
def follow (job : Job) (s : RunState) (schedule : List Nat) : RunState :=
  schedule.foldl (step job) s

/-- All workers have finished. -/
def isDone (s : RunState) : Bool := s.workers.all (·.outcome?.isSome)

/-- What the workers have brought about: the first of their errors, or all that they set aside. -/
def gather : List Phase → Except RunError (List (Nat × LintError))
  | [] => .ok []
  | phase :: rest =>
    match phase.outcome?.getD (.ok []) with
    | .error e => .error e
    | .ok failures =>
      match gather rest with
      | .error e => .error e
      | .ok others => .ok (failures ++ others)

/-- The result of a run whose workers have finished. Failures stand in the order of the files. -/
def result (s : RunState) : Except RunError Summary :=
  match gather s.workers with
  | .error e => .error e
  | .ok [] =>
    .ok { files := s.shared.linted, diagnostics := s.shared.reported,
          workers := s.workers.length }
  | .ok failures => .error (.isolated ((failures.mergeSort fun a b => a.1 ≤ b.1).map (·.2)))

end RunState

namespace Job

/-- Actions that a worker takes at most when it makes its host and lints all files. -/
def quota (job : Job) (w : Nat) : Nat :=
  match job.create w with
  | .error _ => 2
  | .ok host =>
    job.files.foldl (fun n file => n + 6 + ((lintFile host file).toOption.elim 0 List.length)) 4

/-- A schedule in which one worker after the other goes on until it has finished. -/
def inTurn (job : Job) (workers : Nat) : List Nat :=
  (List.range workers).flatMap fun w => List.replicate (job.quota w) w

end Job

/-- What is left of a run. -/
structure RunOutcome where
  result : Except RunError Summary
  delivered : List Diagnostic
  /-- Hosts that were asked for. -/
  hosts : Nat

/-- Lints files with the rules of a script. -/
def run (bundler : String → Except String String) (create : String → Except HostError Host)
    (script : String) (files : List SourceFile) (options : RunOptions) : RunOutcome :=
  match bundler script with
  | .error reason => { result := .error (.bundle reason), delivered := [], hosts := 0 }
  | .ok bundle =>
    let job : Job := { files, policy := options.policy, create := fun _ => create bundle }
    let workers := options.effectiveWorkers files.length
    let s := (RunState.init workers).follow job (job.inTurn workers)
    { result := s.result, delivered := s.shared.delivered.map (·.2), hosts := s.shared.hosts }

end EstreeLint.Lint
