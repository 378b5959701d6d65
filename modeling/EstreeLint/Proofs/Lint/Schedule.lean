import EstreeLint.Lint.Run
import Mathlib.Algebra.BigOperators.Group.Finset.Basic
import Mathlib.Algebra.GroupWithZero.Nat
import Mathlib.Tactic.Common

/-!
Runs under any schedule.

A step changes the phase of one worker and what the workers share, so an invariant of runs is
checked worker by worker: `log_invariant`. A worker needs no more turns than its quota, whatever
the others do, since a file that another worker takes is one that it need not lint itself.
-/

namespace EstreeLint.Lint

namespace RunState

variable {job : Job} {s : RunState} {w : Nat} {p : Phase}

@[simp] lemma follow_nil : s.follow job [] = s := rfl

@[simp] lemma follow_cons (schedule : List Nat) :
    s.follow job (w :: schedule) = (s.step job w).follow job schedule := rfl

lemma step_of_none (h : s.workers[w]? = none) : s.step job w = s := by simp [step, h]

lemma step_of_some (h : s.workers[w]? = some p) :
    s.step job w =
      ⟨(p.step job w s.shared).2, s.workers.set w (p.step job w s.shared).1⟩ := by
  simp [step, h]

/-- A step that is made is made by a worker between the others. -/
lemma step_split (h : s.workers[w]? = some p) :
    ∃ before after, s = ⟨s.shared, before ++ p :: after⟩ ∧ before.length = w ∧
      s.step job w =
        ⟨(p.step job w s.shared).2, before ++ (p.step job w s.shared).1 :: after⟩ := by
  obtain ⟨hw, hp⟩ := List.getElem?_eq_some_iff.1 h
  obtain ⟨before, after, hsplit, hlen, hset⟩ : ∃ before after,
      s.workers = before ++ s.workers[w] :: after ∧ before.length = w ∧
        s.workers.set w (p.step job w s.shared).1 = before ++ (p.step job w s.shared).1 :: after :=
    List.exists_of_set hw
  rw [hp] at hsplit
  refine ⟨before, after, ?_, hlen, ?_⟩
  · rw [← hsplit]
  · rw [step_of_some h, hset]

/-- What the workers do as a schedule says, as far as `what` tells it of a phase. -/
def log (job : Job) (what : Phase → Shared → List Nat) : RunState → List Nat → List Nat
  | _, [] => []
  | s, w :: schedule =>
    s.workers[w]?.elim [] (what · s.shared) ++ log job what (s.step job w) schedule

/-- **What every step of every worker keeps holds throughout a run**, of the state and of what has
been done. -/
theorem log_invariant {f : Phase → Shared → List Nat} {P : List Nat → RunState → Prop}
    (hs : P [] s)
    (hstep : ∀ done shared before p after, P done ⟨shared, before ++ p :: after⟩ →
      P (done ++ f p shared)
        ⟨(p.step job before.length shared).2,
          before ++ (p.step job before.length shared).1 :: after⟩)
    (schedule : List Nat) : P (log job f s schedule) (s.follow job schedule) := by
  suffices h : ∀ done s, P done s → P (done ++ log job f s schedule) (s.follow job schedule) from
    h [] s hs
  induction schedule with
  | nil =>
    intro done s hP
    simpa [log] using hP
  | cons w schedule ih =>
    intro done s hP
    cases h : s.workers[w]? with
    | none => simpa [log, h, step_of_none h] using ih done s hP
    | some p =>
      obtain ⟨before, after, hsplit, rfl, hnext⟩ := step_split h
      have hlater := ih _ _ (hstep done s.shared before p after (hsplit ▸ hP))
      rw [← hnext, List.append_assoc] at hlater
      simpa [log, h] using hlater

@[simp] lemma length_step : (s.step job w).workers.length = s.workers.length := by
  cases h : s.workers[w]? with
  | none => rw [step_of_none h]
  | some p => simp [step_of_some h]

/-- Nobody joins a run or leaves it. -/
@[simp] lemma length_follow (schedule : List Nat) :
    (s.follow job schedule).workers.length = s.workers.length := by
  induction schedule generalizing s with
  | nil => rfl
  | cons w schedule ih => simp [ih]

end RunState

/-! ### Turns -/

/-- The most actions that a worker with the given host takes for a file: it looks, takes the file,
lints it, counts it twice and delivers what it found until nothing is left. -/
def Job.effort (host : Host) (file : SourceFile) : Nat :=
  6 + (lintFile host file).toOption.elim 0 List.length

/-- The effort for all files that have not been taken. -/
def Job.remaining (job : Job) (host : Host) (next : Nat) : Nat :=
  ((job.files.drop next).map (effort host)).sum

namespace Job

variable {job : Job} {host : Host} {next : Nat}

lemma remaining_of_getElem? {file : SourceFile} (h : job.files[next]? = some file) :
    job.remaining host next = effort host file + job.remaining host (next + 1) := by
  obtain ⟨hlt, rfl⟩ := List.getElem?_eq_some_iff.1 h
  rw [remaining, List.drop_eq_getElem_cons hlt, List.map_cons, List.sum_cons, remaining]

lemma remaining_succ_le : job.remaining host (next + 1) ≤ job.remaining host next := by
  cases h : job.files[next]? with
  | none =>
    have hlen := List.getElem?_eq_none_iff.1 h
    simp [remaining, List.drop_eq_nil_of_le hlen, List.drop_eq_nil_of_le (Nat.le_succ_of_le hlen)]
  | some file =>
    rw [remaining_of_getElem? h]
    exact Nat.le_add_left ..

lemma remaining_anti (host : Host) {later : Nat} (h : next ≤ later) :
    job.remaining host later ≤ job.remaining host next := by
  induction h with
  | refl => exact Nat.le_refl _
  | step _ ih => exact Nat.le_trans remaining_succ_le ih

lemma quota_of_ok {w : Nat} (h : job.create w = .ok host) :
    job.quota w = 4 + job.remaining host 0 := by
  have hfold (files : List SourceFile) (n : Nat) :
      files.foldl (fun n file => n + 6 + ((lintFile host file).toOption.elim 0 List.length)) n =
        n + (files.map (effort host)).sum := by
    induction files generalizing n with
    | nil => rfl
    | cons file files ih =>
      rw [List.foldl_cons, ih, List.map_cons, List.sum_cons, effort]
      omega
  simp only [quota, h, hfold, remaining, List.drop_zero]

end Job

namespace Phase

/-- The most turns that worker `w` needs from a phase on, where `next` is the next file to be
taken. -/
def turns (job : Job) (w next : Nat) : Phase → Nat
  | .starting => job.quota w
  | .looking desk => 2 + job.remaining desk.host next
  | .taking desk => 1 + job.remaining desk.host next
  | .linting desk index =>
    job.files[index]?.elim 3 (Job.effort desk.host) + job.remaining desk.host next
  | .counting desk _ diagnostics => 5 + diagnostics.length + job.remaining desk.host next
  | .adding desk _ diagnostics => 4 + diagnostics.length + job.remaining desk.host next
  | .delivering desk _ rest => 3 + rest.length + job.remaining desk.host next
  | .aborting _ => 1
  | .finished _ => 0

variable {job : Job} {w next : Nat} {p : Phase} {s : Shared}

/-- A file that another worker has taken need not be linted. -/
lemma turns_anti {later : Nat} (h : next ≤ later) : p.turns job w later ≤ p.turns job w next := by
  cases p with
  | starting | aborting _ | finished _ => exact Nat.le_refl _
  | looking desk | taking desk | linting desk _ | counting desk _ _ | adding desk _ _
  | delivering desk _ _ =>
    have hanti := job.remaining_anti desk.host h
    simp only [turns]
    omega

lemma next_le_step : s.next ≤ (p.step job w s).2.next := by
  cases p with
  | starting => cases h : job.create w <;> simp [step, h]
  | looking desk => simp only [step]; split <;> exact Nat.le_refl _
  | linting desk index =>
    cases h : job.files[index]? with
    | none => simp [step, h]
    | some file => cases hf : lintFile desk.host file <;> simp [step, h, hf]
  | delivering desk index rest => cases rest <;> exact Nat.le_refl _
  | taking desk => exact Nat.le_succ _
  | counting _ _ _ | adding _ _ _ | aborting _ | finished _ => exact Nat.le_refl _

/-- **Each turn brings a worker closer to its end.** -/
lemma turns_step (h : p.outcome? = none) :
    (p.step job w s).1.turns job w (p.step job w s).2.next < p.turns job w s.next := by
  cases p with
  | starting =>
    cases hc : job.create w with
    | error e => simp [step, hc, turns, Job.quota]
    | ok host =>
      have hanti := job.remaining_anti host (Nat.zero_le s.next)
      simp only [step, hc, turns, Job.quota_of_ok hc]
      omega
  | looking desk =>
    simp only [step]
    split <;> simp only [turns] <;> omega
  | taking desk =>
    by_cases hlt : s.next < job.files.length
    · have hfile : job.files[s.next]? = some job.files[s.next] := List.getElem?_eq_getElem hlt
      simp only [step, hlt, if_true, turns, Job.remaining_of_getElem? hfile]
      simp only [hfile, Option.elim_some]
      omega
    · simp only [step, hlt, if_false, turns]
      omega
  | linting desk index =>
    cases hf : job.files[index]? with
    | none =>
      simp only [step, hf, turns, Option.elim_none]
      omega
    | some file =>
      cases hl : lintFile desk.host file with
      | ok diagnostics =>
        simp only [step, hf, hl, turns, Option.elim_some, Job.effort, Except.toOption]
        omega
      | error e =>
        have heffort : 6 ≤ Job.effort desk.host file := Nat.le_add_right ..
        cases hp : job.policy <;>
          simp only [step, hf, hl, turns, afterFailure, hp, Option.elim_some] <;> omega
  | counting desk index diagnostics => simp only [step, turns]; omega
  | adding desk index diagnostics => simp only [step, turns]; omega
  | delivering desk index rest =>
    cases rest with
    | nil => simp only [step, turns, List.length_nil]; omega
    | cons d rest => simp only [step, turns, List.length_cons]; omega
  | aborting cause => simp [step, turns]
  | finished outcome => cases h

lemma outcome?_of_turns_eq_zero (h : p.turns job w next = 0) : p.outcome?.isSome = true := by
  cases p with
  | finished outcome => rfl
  | starting =>
    cases hc : job.create w with
    | error e => simp [turns, Job.quota, hc] at h
    | ok host => simp [turns, Job.quota_of_ok hc] at h
  | linting desk index =>
    cases hf : job.files[index]? <;> simp [turns, hf, Job.effort] at h
  | _ => simp [turns] at h

end Phase

namespace RunState

variable {job : Job} {s : RunState} {v w : Nat} {p : Phase}

/-- The turns that a worker still needs at most; none if there is no such worker. -/
def turns (job : Job) (s : RunState) (w : Nat) : Nat :=
  s.workers[w]?.elim 0 (Phase.turns job w s.shared.next)

lemma turns_step_le : (s.step job v).turns job w ≤ s.turns job w := by
  cases hv : s.workers[v]? with
  | none => rw [step_of_none hv]
  | some p =>
    rw [step_of_some hv]
    by_cases hvw : v = w
    · subst hvw
      have hlt := (List.getElem?_eq_some_iff.1 hv).1
      simp only [turns, hv, List.getElem?_set_self hlt, Option.elim_some]
      by_cases hp : p.outcome? = none
      · exact Nat.le_of_lt (Phase.turns_step hp)
      · cases p <;> simp_all [Phase.outcome?, Phase.step, Phase.turns]
    · simp only [turns, List.getElem?_set_ne hvw]
      cases s.workers[w]? with
      | none => exact Nat.le_refl _
      | some q => exact Phase.turns_anti Phase.next_le_step

lemma turns_step_self : (s.step job w).turns job w ≤ s.turns job w - 1 := by
  cases hw : s.workers[w]? with
  | none => simp [step_of_none hw, turns, hw]
  | some p =>
    have hlt := (List.getElem?_eq_some_iff.1 hw).1
    rw [step_of_some hw]
    simp only [turns, hw, List.getElem?_set_self hlt, Option.elim_some]
    by_cases hp : p.outcome? = none
    · exact Nat.le_sub_one_of_lt (Phase.turns_step hp)
    · cases p <;> simp_all [Phase.outcome?, Phase.step, Phase.turns]

/-- Each turn of a worker is one less that it needs, whoever moves in between. -/
lemma turns_follow (schedule : List Nat) :
    (s.follow job schedule).turns job w ≤ s.turns job w - schedule.count w := by
  induction schedule generalizing s with
  | nil => exact Nat.le_refl _
  | cons v schedule ih =>
    rw [follow_cons]
    by_cases hvw : v = w
    · subst hvw
      have hself : (s.step job v).turns job v ≤ s.turns job v - 1 := turns_step_self
      have hrest := ih (s := s.step job v)
      rw [List.count_cons_self]
      omega
    · have hother : (s.step job v).turns job w ≤ s.turns job w := turns_step_le
      have hrest := ih (s := s.step job v)
      rw [List.count_cons_of_ne hvw]
      omega

/-- **A run has finished when each worker has had its quota of turns**, in whatever order. -/
theorem isDone_of_quota {workers : Nat} {schedule : List Nat}
    (h : ∀ w < workers, job.quota w ≤ schedule.count w) :
    ((init workers).follow job schedule).isDone = true := by
  refine List.all_eq_true.2 fun p hp => ?_
  obtain ⟨w, hw, rfl⟩ := List.getElem_of_mem hp
  have hlen : w < workers := by simpa [init] using hw
  have hturns : ((init workers).follow job schedule).turns job w ≤
      (init workers).turns job w - schedule.count w := turns_follow schedule
  have hinit : (init workers).turns job w = job.quota w := by
    simp [turns, init, hlen, Phase.turns]
  have hzero : ((init workers).follow job schedule).turns job w = 0 := by
    have := h w hlen
    omega
  simp only [turns, List.getElem?_eq_getElem hw, Option.elim_some] at hzero
  exact Phase.outcome?_of_turns_eq_zero hzero

/-- Workers that go on one after the other finish. -/
lemma isDone_inTurn (job : Job) (workers : Nat) :
    ((init workers).follow job (job.inTurn workers)).isDone = true := by
  refine isDone_of_quota fun w hw => ?_
  have hsub : (List.replicate (job.quota w) w).Sublist (job.inTurn workers) := by
    rw [Job.inTurn, List.flatMap_def]
    exact List.sublist_flatten_of_mem (List.mem_map.2 ⟨w, List.mem_range.2 hw, rfl⟩)
  simpa using hsub.count_le w

/-- What is left of a run that has come to an end. -/
def outcome (s : RunState) : RunOutcome where
  result := s.result
  delivered := s.shared.delivered.map (·.2)
  hosts := s.shared.hosts

end RunState

/-- **A run with a bundle follows a schedule until all workers have finished.** -/
theorem run_follows {bundler : String → Except String String}
    {create : String → Except HostError Host} {script bundle : String} {files : List SourceFile}
    {options : RunOptions} {job : Job} (hbundle : bundler script = .ok bundle)
    (hjob : job = { files, policy := options.policy, create := fun _ => create bundle }) :
    ∃ schedule,
      ((RunState.init (options.effectiveWorkers files.length)).follow job schedule).isDone = true ∧
      run bundler create script files options =
        ((RunState.init (options.effectiveWorkers files.length)).follow job schedule).outcome := by
  subst hjob
  refine ⟨_, RunState.isDone_inTurn _ _, ?_⟩
  simp only [run, hbundle]
  rfl

end EstreeLint.Lint
