import EstreeLint.Text.Split

/-!
How a run is set up: how many workers there are, and what a failing file does to the run.
-/

namespace EstreeLint.Lint

/-- What a run does when a file fails. -/
inductive FailurePolicy where
  /-- The run stops and answers with the failure. -/
  | failFast
  /-- The run goes on and answers with all failures. -/
  | isolate
deriving DecidableEq, Repr

namespace FailurePolicy

def name : FailurePolicy → String
  | .failFast => "fail-fast"
  | .isolate => "isolate"

/-- Reads a policy, in upper or lower case and with white space around it. -/
def parse (value : String) : Except String FailurePolicy :=
  match String.ofList (Text.lowered (Text.trim value.toList)) with
  | "fail-fast" | "failfast" => .ok .failFast
  | "isolate" => .ok .isolate
  | other =>
    .error ("unknown failure policy '" ++ other ++ "' (expected 'fail-fast' or 'isolate')")

end FailurePolicy

/-- The least number that is too large for a count. -/
def countLimit : Nat := UInt64.size

/-- Reads a count: digits, with a plus sign or none. -/
def readCount? (cs : List Char) : Option Nat :=
  let digits := if cs.head? == some '+' then cs.drop 1 else cs
  if digits.isEmpty || !digits.all Char.isDigit then none
  else
    let n := digits.foldl (fun n c => n * 10 + (c.toNat - '0'.toNat)) 0
    if n < countLimit then some n else none

structure RunOptions where
  workers : Nat
  /-- All files are linted by one worker. -/
  singleThreaded : Bool := false
  policy : FailurePolicy := .failFast
deriving DecidableEq, Repr

namespace RunOptions

def withWorkers (o : RunOptions) (n : Nat) : RunOptions := { o with workers := max n 1 }

def withSingleThreaded (o : RunOptions) (b : Bool) : RunOptions := { o with singleThreaded := b }

def withPolicy (o : RunOptions) (p : FailurePolicy) : RunOptions := { o with policy := p }

/-- Workers that a run over some files has: no more than files, and at least one. -/
def effectiveWorkers (o : RunOptions) (files : Nat) : Nat :=
  if o.singleThreaded then 1 else min (max o.workers 1) (max files 1)

/-- A value of the environment that means yes. -/
def isTruthy (value : String) : Bool :=
  ["1", "true", "yes", "on"].contains (String.ofList (Text.lowered (Text.trim value.toList)))

/-- What the environment says about a run. -/
structure Environment where
  workers : Option String := none
  singleThreaded : Option String := none
  policy : Option String := none

/-- Options with what the environment says. Values that cannot be read are passed over. -/
def ofEnvironment (base : RunOptions) (e : Environment) : RunOptions :=
  let workers := e.workers.bind fun v => readCount? (Text.trim v.toList)
  let policy := e.policy.bind fun v => (FailurePolicy.parse v).toOption
  { workers := workers.elim base.workers (max · 1)
    singleThreaded := e.singleThreaded.elim base.singleThreaded isTruthy
    policy := policy.getD base.policy }

end RunOptions

end EstreeLint.Lint
