import EstreeLint.Proofs.Lint.Outcome

/-!
Runs that stop at the first failure, and runs for which a host cannot be made.

A worker that meets a failure gives up and answers with it, so a run without an error is one in
which no failure was met; and since the workers then leave only when no file is left, there is none.
A worker that has looked before the run is aborted may still take one file, and finishes it.
-/

namespace EstreeLint.Lint

open scoped BigOperators

namespace Phase

/-- A worker is about to take a file, having found that the run goes on. -/
def isTaking : Phase → Bool
  | .taking _ => true
  | _ => false

variable {job : Job} {w : Nat} {p : Phase} {s : Shared}

/-- Once a run is aborted it stays so, and nobody goes on to take a file. -/
lemma step_of_aborted (h : s.aborted = true) :
    (p.step job w s).2.aborted = true ∧ (p.step job w s).1.isTaking = false := by
  cases p with
  | starting => cases hc : job.create w <;> simp [step, hc, isTaking, h]
  | looking desk => simp [step, h, isTaking]
  | taking desk => by_cases hlt : s.next < job.files.length <;> simp [step, hlt, isTaking, h]
  | linting desk i =>
    cases hf : job.files[i]? with
    | none => simp [step, hf, isTaking, h]
    | some file =>
      cases hlint : lintFile desk.host file with
      | ok ds => simp [step, hf, hlint, isTaking, h]
      | error e => cases hp : job.policy <;> simp [step, hf, hlint, afterFailure, hp, isTaking, h]
  | delivering desk i ds => cases ds <;> simp [step, isTaking, h]
  | counting _ _ _ | adding _ _ _ | aborting _ | finished _ => simp [step, isTaking, h]

end Phase

namespace RunState

variable {job : Job} {lint : Linter} {s : RunState} {workers : Nat}

/-! ### After an abort -/

/-- **Once a run is aborted, a file is only taken by a worker that had looked before**, and by each
of them once. -/
lemma handedOut_of_aborted (h : s.shared.aborted = true) (later : List Nat) :
    (s.follow job later).shared.aborted = true ∧
      (handedOut job s later).length ≤ s.workers.countP Phase.isTaking := by
  suffices hrun : (s.follow job later).shared.aborted = true ∧
      (handedOut job s later).length + (s.follow job later).workers.countP Phase.isTaking ≤
        s.workers.countP Phase.isTaking from
    ⟨hrun.1, Nat.le_trans (Nat.le_add_right ..) hrun.2⟩
  refine log_invariant (P := fun done t => t.shared.aborted = true ∧
    done.length + t.workers.countP Phase.isTaking ≤ s.workers.countP Phase.isTaking)
    ⟨h, by simp⟩ ?_ later
  rintro done shared before p after ⟨haborted, hcount⟩
  obtain ⟨hstays, htaking⟩ := Phase.step_of_aborted (w := before.length) (p := p) haborted
  refine ⟨hstays, ?_⟩
  simp only [List.countP_append, List.countP_cons, htaking, List.length_append] at hcount ⊢
  cases p with
  | taking desk =>
    have hone : (if shared.next < job.files.length then [shared.next] else []).length ≤ 1 := by
      split <;> simp
    simp only [Phase.isTaking, if_true] at hcount
    dsimp only
    simp only [Bool.false_eq_true, if_false]
    omega
  | _ =>
    simp only [List.length_nil, Bool.false_eq_true, if_false]
    omega

/-- A worker that looks after an abort leaves. -/
lemma step_looking_of_aborted {w : Nat} {desk : Desk} (h : s.shared.aborted = true)
    (hw : s.workers[w]? = some (.looking desk)) :
    (s.step job w).workers[w]? = some (.finished (.ok desk.isolated)) := by
  have hlt := (List.getElem?_eq_some_iff.1 hw).1
  rw [step_of_some hw]
  simp [Phase.step, h, hlt]

/-! ### Failures that are met -/

/-- Failures that a worker answers with, or is about to. -/
def answered (job : Job) (lint : Linter) : Phase → Nat
  | .linting _ i => (job.failure? lint i).elim 0 fun _ => 1
  | .aborting (.file _) | .finished (.error (.file _)) => 1
  | _ => 0

variable (workers) in
/-- In a run that stops at the first failure, a worker that meets one answers with it. -/
lemma answered_follow (hl : job.Lints lint) (hp : job.policy = .failFast) (schedule : List Nat) :
    Balanced (fun i => (job.failure? lint i).elim 0 fun _ => 1) (fun _ => 0) (answered job lint)
      ((init workers).follow job schedule) := by
  refine balanced_follow hl rfl rfl (fun h => ?_) schedule
  cases h with
  | hireNobody => simp [answered, Phase.gain]
  | runOut h => simp [answered, Phase.gain, Job.failure?_of_le h]
  | lint h => simp [answered, Phase.gain, Job.failure?, h]
  | giveUp h => simp [answered, Phase.gain, Job.failure?_of_error h]
  | setAside h hgoes => rw [hp] at hgoes; cases hgoes
  | @abort cause => cases cause <;> simp [answered, Phase.gain]
  | _ => simp [answered, Phase.gain]

/-- A worker that gets no host does nothing but give up. -/
lemma hostless_follow (hl : job.Lints lint) (schedule : List Nat) :
    ∀ w p e, ((init workers).follow job schedule).workers[w]? = some p → job.create w = .error e →
      p = .starting ∨ p = .aborting (.hostInit e) ∨ p = .finished (.error (.hostInit e)) := by
  refine (follow_valid (P := fun s => ∀ w p e, s.workers[w]? = some p → job.create w = .error e →
    p = .starting ∨ p = .aborting (.hostInit e) ∨ p = .finished (.error (.hostInit e)))
    hl ?_ ?_ schedule).2
  · intro w p e hw _
    exact .inl (List.eq_of_mem_replicate (List.mem_of_getElem? hw))
  · intro s s' before p p' after hacts ih w q e hq hc
    by_cases hw : w = before.length
    · subst hw
      obtain rfl : p' = q := by simpa using hq
      have hp := ih before.length p e (by simp) hc
      cases hacts with
      | hire h => rw [hc] at h; cases h
      | hireNobody h => rw [hc] at h; cases h; exact .inr (.inl rfl)
      | abort => simpa using hp
      | rest => exact hp
      | _ => simp at hp
    · refine ih w q e ?_ hc
      rw [← hq]
      simp only [List.getElem?_append, List.getElem?_cons]
      split
      · rfl
      · rw [if_neg (by omega), if_neg (by omega)]

/-! ### All or nothing -/

/-- No file is linted twice. -/
lemma nodup_lintings (hl : job.Lints lint) (schedule : List Nat) :
    (lintings job (init workers) schedule).Nodup := by
  have hle : (lintings job (init workers) schedule : Multiset Nat) ≤
      List.range (min ((init workers).follow job schedule).shared.next job.files.length) := by
    rw [← lintings_add_toLint workers hl schedule]
    exact Multiset.le_add_right ..
  exact Multiset.coe_nodup.1 (Multiset.nodup_of_le hle (Multiset.coe_nodup.2 List.nodup_range))

variable (workers) in
/-- What has been delivered of a file is the beginning of what was found in it. -/
lemma deliveredOf_prefix (hl : job.Lints lint) (schedule : List Nat) (i : Nat) :
    ((init workers).follow job schedule).deliveredOf i <+: job.found lint i := by
  have hall := delivered_follow workers hl schedule i
  split at hall
  · exact ⟨_, hall⟩
  · rw [(List.append_eq_nil_iff.1 hall).1]
    exact List.nil_prefix

/-- Nothing is delivered of a file that fails, and in the end all or nothing of any other. -/
lemma all_or_nothing (hl : job.Lints lint) {schedule : List Nat} {i : Nat}
    (hi : i < job.files.length) :
    (∀ e, lint job.files[i] = .error e →
      ((init workers).follow job schedule).deliveredOf i = []) ∧
    (((init workers).follow job schedule).isDone = true →
      ((init workers).follow job schedule).deliveredOf i = [] ∨
        lint job.files[i] = .ok (((init workers).follow job schedule).deliveredOf i)) := by
  have hbegun := deliveredOf_prefix workers hl schedule i
  have hfails : ∀ e, lint job.files[i] = .error e →
      ((init workers).follow job schedule).deliveredOf i = [] := by
    intro e he
    rw [Job.found_eq hi, he] at hbegun
    exact List.prefix_nil.1 hbegun
  refine ⟨hfails, fun hdone => ?_⟩
  cases hlint : lint job.files[i] with
  | error e => exact .inl (hfails e hlint)
  | ok ds =>
    rw [deliveredOf_of_isDone hl hdone, Job.found_eq hi, hlint]
    split
    · exact .inr rfl
    · exact .inl rfl

/-! ### The result of a run that stops at the first failure -/

/-- All hosts are made, and no file fails. -/
def Succeeds (job : Job) (lint : Linter) (workers : Nat) : Prop :=
  (∀ w < workers, ∃ host, job.create w = .ok host) ∧ ∀ file ∈ job.files, ∃ ds, lint file = .ok ds

lemma not_causes_of_succeeds (h : Succeeds job lint workers) (e : RunError) :
    ¬ job.Causes lint workers e := by
  rintro (⟨hw, he⟩ | @⟨i, e, -, he⟩)
  · obtain ⟨host, hhost⟩ := h.1 _ hw
    rw [he] at hhost
    cases hhost
  · obtain ⟨hi, hfails⟩ := Job.lint_of_failure? he
    obtain ⟨ds, hds⟩ := h.2 _ (List.getElem_mem hi)
    rw [hfails] at hds
    cases hds

lemma all_finished_ok (hdone : s.isDone = true)
    (h : ¬ ∃ e, Phase.finished (.error e) ∈ s.workers) :
    ∀ p ∈ s.workers, ∃ l, p = .finished (.ok l) := by
  intro p hp
  obtain ⟨outcome, rfl⟩ := finished_of_isDone hdone hp
  cases outcome with
  | ok l => exact ⟨l, rfl⟩
  | error e => exact absurd ⟨e, hp⟩ h

lemma result_of_error (h : ∃ e, Phase.finished (.error e) ∈ s.workers) :
    ∃ e, s.result = .error e ∧ Phase.finished (.error e) ∈ s.workers := by
  obtain ⟨e, hgather, hmem⟩ := gather_of_error h
  exact ⟨e, by simp only [result, hgather], hmem⟩

section

variable {schedule : List Nat} (hworkers : 0 < workers) (hp : job.policy = .failFast)
  (hl : job.Lints lint) (hdone : ((init workers).follow job schedule).isDone = true)

include hp hl

/-- Nothing is set aside in a run that stops at the first failure. -/
lemma result_of_ok
    (hok : ∀ p ∈ ((init workers).follow job schedule).workers, ∃ l, p = .finished (.ok l)) :
    ∃ x, ((init workers).follow job schedule).result = .ok x := by
  have hnone : ((init workers).follow job schedule).workers.flatMap setAside = [] := by
    refine List.flatMap_eq_nil_iff.2 fun p hmem => ?_
    obtain ⟨l, rfl⟩ := hok p hmem
    exact (valid_follow hl schedule).phases _ hmem hp
  unfold result
  rw [gather_of_ok hok, hnone]
  exact ⟨_, rfl⟩

include hworkers in
/-- Workers that finish without an error have met no failure, and all files. -/
lemma succeeds_of_finished
    (hok : ∀ p ∈ ((init workers).follow job schedule).workers, ∃ l, p = .finished (.ok l)) :
    Succeeds job lint workers := by
  refine ⟨fun w hw => ?_, fun file hfile => ?_⟩
  · cases hc : job.create w with
    | ok host => exact ⟨host, rfl⟩
    | error e =>
      have hlt : w < ((init workers).follow job schedule).workers.length := by simpa [init] using hw
      obtain ⟨l, hfinished⟩ := hok _ (List.getElem_mem hlt)
      rcases hostless_follow hl schedule w _ e (List.getElem?_eq_getElem hlt) hc with h | h | h <;>
        rw [hfinished] at h <;> cases h
  · obtain ⟨i, hi, rfl⟩ := List.getElem_of_mem hfile
    have hnext := length_le_next hl hworkers hok
    have hbalance := answered_follow workers hl hp schedule
    have howed :
        (((init workers).follow job schedule).workers.map (answered job lint)).sum = 0 := by
      refine List.sum_eq_zero fun x hx => ?_
      obtain ⟨p, hmem, rfl⟩ := List.mem_map.1 hx
      obtain ⟨l, rfl⟩ := hok p hmem
      rfl
    rw [Balanced, howed] at hbalance
    have hnone := Finset.sum_eq_zero_iff.1 hbalance.symm i
      (Finset.mem_range.2 (Nat.lt_of_lt_of_le hi hnext))
    rcases Job.found?_or_failure? lint hi with ⟨ds, -, -, hds⟩ | ⟨e, -, hfailure, -⟩
    · exact ⟨ds, hds⟩
    · simp [hfailure] at hnone

include hdone

/-- **The error of a run is one that a worker gave up for.** -/
lemma causes_of_result {e : RunError}
    (h : ((init workers).follow job schedule).result = .error e) :
    Phase.finished (.error e) ∈ ((init workers).follow job schedule).workers ∧
      job.Causes lint workers e := by
  by_cases herror : ∃ e, Phase.finished (.error e) ∈ ((init workers).follow job schedule).workers
  · obtain ⟨e', hresult, hmem⟩ := result_of_error herror
    rw [h] at hresult
    cases hresult
    exact ⟨hmem, (valid_follow hl schedule).phases _ hmem⟩
  · obtain ⟨x, hresult⟩ := result_of_ok hp hl (all_finished_ok hdone herror)
    rw [h] at hresult
    cases hresult

include hworkers in
/-- **A run that stops at the first failure has a summary if and only if nothing fails.** -/
lemma result_ok_iff :
    (∃ x, ((init workers).follow job schedule).result = .ok x) ↔ Succeeds job lint workers := by
  refine ⟨fun ⟨x, hx⟩ => ?_, fun h => ?_⟩
  · refine succeeds_of_finished hworkers hp hl (all_finished_ok hdone fun herror => ?_)
    obtain ⟨e, hresult, -⟩ := result_of_error herror
    rw [hx] at hresult
    cases hresult
  · exact result_of_ok hp hl (finished_ok hl hdone (not_causes_of_succeeds h))

include hworkers in
omit hp in
/-- Where nothing fails, all that was found has been delivered. -/
lemma delivered_of_succeeds (h : Succeeds job lint workers) {i : Nat}
    (hi : i < job.files.length) :
    lint job.files[i] = .ok (((init workers).follow job schedule).deliveredOf i) := by
  have hnext := length_le_next hl hworkers (finished_ok hl hdone (not_causes_of_succeeds h))
  obtain ⟨ds, hds⟩ := h.2 _ (List.getElem_mem hi)
  rw [deliveredOf_of_isDone hl hdone, if_pos (Nat.lt_of_lt_of_le hi hnext), Job.found_eq hi, hds]
  rfl

end

/-! ### One worker -/

/-- What a worker has yet to deliver, with the place of its file. -/
def pending (job : Job) (lint : Linter) : Phase → List (Nat × Diagnostic)
  | .linting _ i => (job.found lint i).map (i, ·)
  | .counting _ i ds | .adding _ i ds | .delivering _ i ds => ds.map (i, ·)
  | _ => []

/-- The failure that a worker has met, or is about to meet. -/
def met? (job : Job) (lint : Linter) : Phase → Option LintError
  | .linting _ i => job.failure? lint i
  | .aborting (.file e) | .finished (.error (.file e)) => some e
  | _ => none

/-- The diagnostics of the first files, each with the place of its file. -/
def firstFound (job : Job) (lint : Linter) (n : Nat) : List (Nat × Diagnostic) :=
  (List.range n).flatMap fun i => (job.found lint i).map (i, ·)

/-- What holds of the only worker of a run: it delivers file after file, and a failure that it meets
is the last thing it meets. -/
structure Alone (job : Job) (lint : Linter) (s : Shared) (p : Phase) : Prop where
  delivered : s.delivered ++ pending job lint p = firstFound job lint s.next
  last : ∀ i e, i < s.next → job.failure? lint i = some e →
    s.next = i + 1 ∧ met? job lint p = some e
  met : ∀ e, met? job lint p = some e → ∃ i, s.next = i + 1 ∧ job.failure? lint i = some e

lemma firstFound_succ (n : Nat) :
    firstFound job lint (n + 1) = firstFound job lint n ++ (job.found lint n).map (n, ·) := by
  simp [firstFound, List.range_succ]

/-- Each action keeps what holds of the only worker. -/
lemma Alone.act (hp : job.policy = .failFast) {w : Nat} {p p' : Phase} {s s' : Shared}
    (hacts : Phase.Acts job lint w p s p' s') (h : Alone job lint s p) : Alone job lint s' p' := by
  obtain ⟨hdelivered, hlast, hmet⟩ := h
  cases hacts with
  | take h =>
    have hclean : ∀ i < s.next, job.failure? lint i = none := by
      intro i hi
      cases hf : job.failure? lint i with
      | none => rfl
      | some e => cases (hlast i e hi hf).2
    refine ⟨?_, fun i e hi hf => ?_, fun e he => ⟨s.next, rfl, he⟩⟩
    · simpa [pending, firstFound_succ] using hdelivered
    · obtain hi | rfl := Nat.lt_succ_iff_lt_or_eq.1 hi
      · rw [hclean i hi] at hf
        cases hf
      · exact ⟨rfl, hf⟩
  | runOut h =>
    have hnone : job.found lint s.next = [] := by simp [Job.found, Job.found?_of_le h]
    refine ⟨?_, fun i e hi hf => ?_, fun e he => by cases he⟩
    · simpa [pending, firstFound_succ, hnone] using hdelivered
    · obtain hi | rfl := Nat.lt_succ_iff_lt_or_eq.1 hi
      · cases (hlast i e hi hf).2
      · rw [Job.failure?_of_le h] at hf
        cases hf
  | @lint desk i ds _ h =>
    have hsame : met? job lint (.linting desk i) = none := by simp [met?, Job.failure?, h]
    rw [hsame] at hlast hmet
    refine ⟨?_, hlast, hmet⟩
    simpa [pending, Job.found, Job.found?, h] using hdelivered
  | @giveUp desk i e _ h =>
    have hsame : met? job lint (.linting desk i) = some e := Job.failure?_of_error h
    rw [hsame] at hlast hmet
    refine ⟨?_, hlast, hmet⟩
    simpa [pending, Job.found, Job.found?, h] using hdelivered
  | setAside h hgoes => rw [hp] at hgoes; cases hgoes
  | @abort cause => cases cause <;> exact ⟨hdelivered, hlast, hmet⟩
  | deliver =>
    refine ⟨?_, hlast, hmet⟩
    simpa [pending] using hdelivered
  | _ => exact ⟨hdelivered, hlast, hmet⟩

lemma alone_follow (hl : job.Lints lint) (hp : job.policy = .failFast) (schedule : List Nat) :
    ∀ p, ((init 1).follow job schedule).workers = [p] →
      Alone job lint ((init 1).follow job schedule).shared p := by
  refine (follow_valid (P := fun s => ∀ p, s.workers = [p] → Alone job lint s.shared p)
    hl ?_ ?_ schedule).2
  · intro p hone
    obtain rfl : Phase.starting = p := by simpa [init] using hone
    exact ⟨rfl, fun i e hi => absurd hi (Nat.not_lt_zero i), fun e he => by cases he⟩
  · intro s s' before p p' after hacts ih q hone
    obtain ⟨rfl, rfl, rfl⟩ : before = [] ∧ p' = q ∧ after = [] := by
      cases before <;> simp_all
    exact Alone.act hp hacts (ih p rfl)

/-- **One worker alone stops at the first file that fails**, and has then delivered the files before
it. -/
lemma first_failure {schedule : List Nat} {e : LintError} (hl : job.Lints lint)
    (hp : job.policy = .failFast) (hdone : ((init 1).follow job schedule).isDone = true)
    (h : ((init 1).follow job schedule).result = .error (.file e)) :
    ∃ k, job.failure? lint k = some e ∧ (∀ i < k, job.failure? lint i = none) ∧
      ((init 1).follow job schedule).shared.delivered = firstFound job lint k := by
  obtain ⟨hmem, -⟩ := causes_of_result hp hl hdone h
  obtain ⟨p, hone⟩ := List.length_eq_one_iff.1
    (show ((init 1).follow job schedule).workers.length = 1 by simp [init])
  obtain rfl : Phase.finished (.error (.file e)) = p := by simpa [hone] using hmem
  obtain ⟨hdelivered, hlast, hmet⟩ := alone_follow hl hp schedule _ hone
  obtain ⟨k, hnext, hfailure⟩ := hmet e rfl
  refine ⟨k, hfailure, fun i hi => ?_, ?_⟩
  · cases hf : job.failure? lint i with
    | none => rfl
    | some e' =>
      have := (hlast i e' (by omega) hf).1
      omega
  · have hnone : job.found lint k = [] := by
      obtain ⟨hk, hfails⟩ := Job.lint_of_failure? hfailure
      rw [Job.found_eq hk, hfails]
      rfl
    rw [hnext, firstFound_succ, hnone] at hdelivered
    simpa [pending] using hdelivered

end RunState

open RunState in
/-- **What a run does when something fails, in every order of steps and with any number of
workers.** Without a bundle there is nothing to do. Whatever the policy, the run comes to an end,
no file is linted twice, what is delivered of a file is all or nothing, and after an abort only a
worker that had looked before takes another file. A run that stops at the first failure has a
summary if and only if nothing fails, and else the error of a file or of a host; one worker alone
has that of the first file that fails. -/
theorem failing_runs (job : Job) (lint : Linter) (workers : Nat) (hworkers : 0 < workers)
    (hl : job.Lints lint) :
    (∀ bundler create script reason options, bundler script = .error reason →
      run bundler create script job.files options =
        { result := .error (.bundle reason), delivered := [], hosts := 0 }) ∧
    (∀ bundler create script bundle options, bundler script = .ok bundle →
      job = { files := job.files, policy := options.policy, create := fun _ => create bundle } →
      workers = options.effectiveWorkers job.files.length →
      ∃ schedule, ((init workers).follow job schedule).isDone = true ∧
        run bundler create script job.files options =
          ((init workers).follow job schedule).outcome) ∧
    (∀ schedule, (∀ w < workers, job.quota w ≤ schedule.count w) →
      ((init workers).follow job schedule).isDone = true) ∧
    ∀ schedule, let s := (init workers).follow job schedule
      (lintings job (init workers) schedule).Nodup ∧
      (∀ x ∈ s.shared.delivered, x.1 < job.files.length) ∧
      (∀ i, s.deliveredOf i <+: job.found lint i) ∧
      (∀ i (hi : i < job.files.length),
        (∀ e, lint job.files[i] = .error e → s.deliveredOf i = []) ∧
        (s.isDone = true → s.deliveredOf i = [] ∨ lint job.files[i] = .ok (s.deliveredOf i))) ∧
      (s.shared.aborted = true → ∀ later, let t := s.follow job later
        (handedOut job s later).length ≤ s.workers.countP Phase.isTaking ∧
        ∀ w desk, t.workers[w]? = some (.looking desk) →
          (t.step job w).workers[w]? = some (.finished (.ok desk.isolated))) ∧
      (s.isDone = true → job.policy = .failFast →
        ((∃ x, s.result = .ok x) ↔
          (∀ w < workers, ∃ host, job.create w = .ok host) ∧
            ∀ file ∈ job.files, ∃ ds, lint file = .ok ds) ∧
        (∀ x, s.result = .ok x → ∀ i (hi : i < job.files.length),
          lint job.files[i] = .ok (s.deliveredOf i)) ∧
        (∀ cause, s.result = .error cause →
          (∃ file ∈ job.files, ∃ e, lint file = .error e ∧ cause = .file e) ∨
            ∃ w < workers, ∃ e, job.create w = .error e ∧ cause = .hostInit e) ∧
        (workers = 1 → ∀ e, s.result = .error (.file e) →
          ∃ k, ∃ hk : k < job.files.length, lint job.files[k] = .error e ∧
            (∀ file ∈ job.files.take k, ∃ ds, lint file = .ok ds) ∧
            s.shared.delivered = firstFound job lint k)) := by
  refine ⟨fun bundler create script reason options h => by simp [run, h], ?_,
    fun schedule => isDone_of_quota, fun schedule => ?_⟩
  · rintro bundler create script bundle options hbundle hjob rfl
    exact run_follows hbundle hjob
  intro s
  refine ⟨nodup_lintings hl schedule, fun x => lt_of_mem_delivered hl,
    deliveredOf_prefix workers hl schedule,
    fun i => all_or_nothing hl, fun haborted later => ?_, fun hdone hp => ⟨?_, ?_, ?_, ?_⟩⟩
  · obtain ⟨hstays, htaken⟩ := handedOut_of_aborted haborted later
    exact ⟨htaken, fun w desk => step_looking_of_aborted hstays⟩
  · exact result_ok_iff hworkers hp hl hdone
  · intro x hx i
    exact delivered_of_succeeds hworkers hl hdone
      ((result_ok_iff hworkers hp hl hdone).1 ⟨x, hx⟩)
  · intro cause hcause
    rcases (causes_of_result hp hl hdone hcause).2 with ⟨hw, he⟩ | @⟨i, e, -, he⟩
    · exact .inr ⟨_, hw, _, he, rfl⟩
    · obtain ⟨hi, hfails⟩ := Job.lint_of_failure? he
      exact .inl ⟨_, List.getElem_mem hi, e, hfails, rfl⟩
  · rintro rfl e he
    obtain ⟨k, hfailure, hfirst, hdelivered⟩ := first_failure hl hp hdone he
    obtain ⟨hk, hfails⟩ := Job.lint_of_failure? hfailure
    refine ⟨k, hk, hfails, fun file hfile => ?_, hdelivered⟩
    obtain ⟨i, hi, rfl⟩ := List.getElem_of_mem hfile
    rw [List.length_take] at hi
    rw [List.getElem_take]
    rcases Job.found?_or_failure? lint (show i < job.files.length by omega) with
      ⟨ds, -, -, hds⟩ | ⟨e', -, hf, -⟩
    · exact ⟨ds, hds⟩
    · rw [hfirst i (by omega)] at hf
      cases hf

/-! A run of two workers over a file that parses and one that does not. -/

/-- A host without rules. -/
def silent : Host where
  evaluate _ := .ok []

def brokenSecond : Job where
  files := [.parse "a.ts" ";".toList, .parse "b.ts" "(".toList]
  policy := .failFast
  create _ := .ok silent

theorem brokenSecond_fails :
    ((RunState.init 2).follow brokenSecond (brokenSecond.inTurn 2)).result =
      .error (.file (.parse "b.ts" "Expression expected.")) := by
  have hl : brokenSecond.Lints (lintFile silent) := by
    intro w host hhost file _
    cases hhost
    rfl
  have hquota : ∀ w < 2, brokenSecond.quota w ≤ (brokenSecond.inTurn 2).count w := by
    decide +kernel
  have hfirst : lintFile silent (.parse "a.ts" ";".toList) = .ok [] := by decide +kernel
  have hsecond : lintFile silent (.parse "b.ts" "(".toList) =
      .error (.parse "b.ts" "Expression expected.") := by decide +kernel
  obtain ⟨-, -, hends, hruns⟩ := failing_runs brokenSecond (lintFile silent) 2 (by decide) hl
  obtain ⟨-, -, -, -, -, hfailFast⟩ := hruns (brokenSecond.inTurn 2)
  obtain ⟨hiff, -, hcause, -⟩ := hfailFast (hends _ hquota) rfl
  cases hresult : ((RunState.init 2).follow brokenSecond (brokenSecond.inTurn 2)).result with
  | ok x =>
    obtain ⟨ds, hds⟩ := (hiff.1 ⟨x, hresult⟩).2 (.parse "b.ts" "(".toList) (by simp [brokenSecond])
    rw [hsecond] at hds
    cases hds
  | error cause =>
    rcases hcause cause hresult with ⟨file, hfile, e, he, rfl⟩ | ⟨w, -, e, he, -⟩
    · simp only [brokenSecond, List.mem_cons, List.not_mem_nil, or_false] at hfile
      rcases hfile with rfl | rfl
      · rw [hfirst] at he
        cases he
      · rw [hsecond] at he
        cases he
        rfl
    · cases he

end EstreeLint.Lint
