import EstreeLint.Proofs.Lint.Ledger

/-!
What a run comes to, whichever worker moves when.

A run that goes on past failures lints and delivers every file once and answers with all failures,
as one worker alone would. A run that stops at the first failure answers with a failure exactly if
there is one to be met; what it delivers of a file is all or nothing.
-/

namespace EstreeLint.Lint

open scoped BigOperators

namespace Job

variable (job : Job) (lint : Linter)

/-- The errors of the files that fail, in the order of the files. -/
def errors : List LintError :=
  job.files.filterMap fun file => match lint file with
    | .error e => some e
    | .ok _ => none

/-- The failures of all files with their places, in the order of the files. -/
def failures : List (Nat × LintError) :=
  (List.range job.files.length).filterMap fun i => (job.failure? lint i).map (i, ·)

variable {job lint}

lemma filterMap_range_getElem? {α β : Type} (l : List α) (g : α → Option β) :
    (List.range l.length).filterMap (fun i => l[i]?.bind g) = l.filterMap g := by
  induction l with
  | nil => rfl
  | cons a l ih =>
    rw [List.length_cons, List.range_succ_eq_map, List.filterMap_cons, List.filterMap_cons,
      List.filterMap_map, ← ih]
    rfl

lemma map_failures : (job.failures lint).map (·.2) = job.errors lint := by
  rw [errors, ← filterMap_range_getElem?, failures, List.map_filterMap]
  refine List.filterMap_congr fun i _ => ?_
  unfold failure? verdict
  cases job.files[i]? with
  | none => rfl
  | some file =>
    simp only [Option.map_some, Option.bind_some]
    cases lint file <;> rfl

/-- A file fails with one error. -/
lemma eq_of_mem_failures {a b : Nat × LintError} (ha : a ∈ job.failures lint)
    (hb : b ∈ job.failures lint) (h : a.1 = b.1) : a = b := by
  obtain ⟨i, -, hi⟩ := List.mem_filterMap.1 ha
  obtain ⟨j, -, hj⟩ := List.mem_filterMap.1 hb
  obtain ⟨e, he, rfl⟩ := Option.map_eq_some_iff.1 hi
  obtain ⟨e', he', rfl⟩ := Option.map_eq_some_iff.1 hj
  obtain rfl : i = j := h
  rw [he] at he'
  cases he'
  rfl

lemma pairwise_failures : (job.failures lint).Pairwise fun a b => a.1 < b.1 := by
  refine List.pairwise_filterMap.2 (List.pairwise_lt_range.imp fun hlt x hx y hy => ?_)
  obtain ⟨e, -, rfl⟩ := Option.map_eq_some_iff.1 hx
  obtain ⟨e', -, rfl⟩ := Option.map_eq_some_iff.1 hy
  exact hlt

end Job

namespace RunState

variable {job : Job} {lint : Linter} {s : RunState} {workers : Nat}

/-! ### What is done in the course of a run -/

/-- The places of the files that are handed out, in order. -/
def handedOut (job : Job) : RunState → List Nat → List Nat :=
  log job fun p s => match p with
    | .taking _ => if s.next < job.files.length then [s.next] else []
    | _ => []

/-- The places of the files that are linted, in order. -/
def lintings (job : Job) : RunState → List Nat → List Nat :=
  log job fun p _ => match p with
    | .linting _ i => [i]
    | _ => []

/-- **Each file is handed out once**, in the order of the files. -/
lemma handedOut_eq (hl : job.Lints lint) (schedule : List Nat) :
    handedOut job (init workers) schedule =
      List.range (min ((init workers).follow job schedule).shared.next job.files.length) := by
  refine (log_valid (P := fun done s => done = List.range (min s.shared.next job.files.length))
    hl (by simp [init]) ?_ schedule).2
  intro done s s' before p p' after hacts hdone
  cases hacts with
  | take h =>
    dsimp only at hdone ⊢
    rw [if_pos h, hdone, Nat.min_eq_left (Nat.le_of_lt h), Nat.min_eq_left (Nat.succ_le_of_lt h),
      List.range_succ]
  | runOut h =>
    dsimp only at hdone ⊢
    rw [if_neg (Nat.not_lt_of_le h), hdone, Nat.min_eq_right h,
      Nat.min_eq_right (Nat.le_succ_of_le h), List.append_nil]
  | _ => simpa using hdone

/-- The file that a worker has taken and is about to lint. -/
def toLint : Phase → Multiset Nat
  | .linting _ i => {i}
  | _ => 0

variable (workers) in
/-- **Each file that has been handed out is linted once.** -/
lemma lintings_add_toLint (hl : job.Lints lint) (schedule : List Nat) :
    (lintings job (init workers) schedule : Multiset Nat) +
        (((init workers).follow job schedule).workers.map toLint).sum =
      List.range (min ((init workers).follow job schedule).shared.next job.files.length) := by
  refine (log_valid (P := fun done s => (done : Multiset Nat) + (s.workers.map toLint).sum =
    List.range (min s.shared.next job.files.length)) hl ?_ ?_ schedule).2
  · simp [init, toLint]
  · intro done s s' before p p' after hacts hdone
    simp only [List.map_append, List.map_cons, List.sum_append, List.sum_cons, ← Multiset.coe_add]
      at hdone ⊢
    cases hacts with
    | take h =>
      simp only [Nat.min_eq_left (Nat.le_of_lt h), toLint, zero_add] at hdone
      simp only [Nat.min_eq_left (Nat.succ_le_of_lt h), List.range_succ, ← Multiset.coe_add,
        ← hdone, toLint, Multiset.coe_nil, Multiset.coe_singleton]
      abel
    | runOut h =>
      simp only [Nat.min_eq_right h, Nat.min_eq_right (Nat.le_succ_of_le h), toLint,
        Multiset.coe_nil, add_zero] at hdone ⊢
      exact hdone
    | lint | giveUp | setAside =>
      simp only [toLint, Multiset.coe_singleton, zero_add] at hdone ⊢
      rw [← hdone]
      abel
    | _ => simpa [toLint] using hdone

/-! ### Giving up -/

/-- A worker leaves early only if the run has been aborted, and then by one that gave up. -/
structure Orderly (job : Job) (s : RunState) : Prop where
  left : ∀ l, Phase.finished (.ok l) ∈ s.workers →
    s.shared.aborted = true ∨ job.files.length ≤ s.shared.next
  aborted : s.shared.aborted = true → ∃ e, Phase.finished (.error e) ∈ s.workers

lemma orderly_follow (hl : job.Lints lint) (schedule : List Nat) :
    ((init workers).follow job schedule).Orderly job := by
  refine (follow_valid (P := Orderly job) hl ⟨?_, by simp [init]⟩ ?_ schedule).2
  · intro l hmem
    cases List.eq_of_mem_replicate hmem
  · rintro s s' before p p' after hacts ⟨hleft, haborted⟩
    have hmem {q r : Phase} : q ∈ before ++ r :: after ↔ q = r ∨ q ∈ before ++ after := by
      simp only [List.mem_append, List.mem_cons]
      tauto
    simp only [hmem] at hleft haborted
    refine ⟨fun l h => ?_, fun h => ?_⟩ <;> simp only [hmem] at h ⊢
    · cases hacts with
      | leave ha => exact .inl ha
      | runOut hlen =>
        rcases h with - | h
        · exact .inr (Nat.le_succ_of_le hlen)
        · exact (hleft l (.inr h)).imp_right Nat.le_succ_of_le
      | take => exact (hleft l (.inr (h.resolve_left (by simp)))).imp_right Nat.le_succ_of_le
      | abort => exact .inl rfl
      | rest => exact hleft l h
      | _ => exact hleft l (.inr (h.resolve_left (by simp)))
    · cases hacts with
      | @abort cause => exact ⟨cause, .inl rfl⟩
      | rest => exact haborted h
      | _ =>
        obtain ⟨e, he⟩ := haborted h
        exact ⟨e, .inr (he.resolve_left (by simp))⟩

/-! ### When all workers have finished -/

/-- The diagnostics that are still to be delivered, counted. -/
lemma deliveries_follow (hl : job.Lints lint) (schedule : List Nat) :
    Balanced (fun i => (job.found lint i).length) (fun s => s.delivered.length)
      (fun p => match p with
        | .linting _ i => (job.found lint i).length
        | .counting _ _ ds | .adding _ _ ds | .delivering _ _ ds => ds.length
        | _ => 0)
      ((init workers).follow job schedule) := by
  refine balanced_follow hl rfl rfl (fun h => ?_) schedule
  cases h with
  | runOut h => simp [Phase.gain, Job.found, Job.found?_of_le h]
  | lint h | giveUp h | setAside h => simp [Phase.gain, Job.found, Job.found?, h]
  | deliver =>
    simp only [Phase.gain, List.length_append, List.length_cons, List.length_nil]
    omega
  | _ => simp [Phase.gain]

lemma finished_of_isDone {p : Phase} (h : s.isDone = true) (hp : p ∈ s.workers) :
    ∃ outcome, p = .finished outcome := by
  have hsome := List.all_eq_true.1 h p hp
  cases p with
  | finished outcome => exact ⟨outcome, rfl⟩
  | _ => cases hsome

/-- A worker that has finished owes nothing. -/
lemma sum_owed_of_isDone {M : Type} [AddCommMonoid M] {owed : Phase → M} (h : s.isDone = true)
    (howed : ∀ outcome, owed (.finished outcome) = 0) : (s.workers.map owed).sum = 0 := by
  refine List.sum_eq_zero fun x hx => ?_
  obtain ⟨p, hp, rfl⟩ := List.mem_map.1 hx
  obtain ⟨outcome, rfl⟩ := finished_of_isDone h hp
  exact howed outcome

/-- Where there is no reason to give up, all workers finish without an error. -/
lemma finished_ok {schedule : List Nat} (hl : job.Lints lint)
    (hdone : ((init workers).follow job schedule).isDone = true)
    (hcauses : ∀ e, ¬ job.Causes lint workers e) :
    ∀ p ∈ ((init workers).follow job schedule).workers, ∃ l, p = .finished (.ok l) := by
  intro p h
  obtain ⟨outcome, rfl⟩ := finished_of_isDone hdone h
  cases outcome with
  | ok l => exact ⟨l, rfl⟩
  | error e => exact absurd ((valid_follow hl schedule).phases _ h) (hcauses e)

/-- Workers that finish without an error leave no file behind. -/
lemma length_le_next {schedule : List Nat} (hl : job.Lints lint) (hworkers : 0 < workers)
    (hok : ∀ p ∈ ((init workers).follow job schedule).workers, ∃ l, p = .finished (.ok l)) :
    job.files.length ≤ ((init workers).follow job schedule).shared.next := by
  obtain ⟨hleft, haborted⟩ := orderly_follow hl schedule
  have hlen : 0 < ((init workers).follow job schedule).workers.length := by
    simpa [init] using hworkers
  have hmem := List.getElem_mem hlen
  obtain ⟨l, hfirst⟩ := hok _ hmem
  rw [hfirst] at hmem
  refine (hleft l hmem).resolve_left fun ha => ?_
  obtain ⟨e, he⟩ := haborted ha
  obtain ⟨l', herror⟩ := hok _ he
  cases herror

/-- What a run has delivered of a file when it ends: all or nothing. -/
lemma deliveredOf_of_isDone {schedule : List Nat} {i : Nat} (hl : job.Lints lint)
    (h : ((init workers).follow job schedule).isDone = true) :
    ((init workers).follow job schedule).deliveredOf i =
      if i < ((init workers).follow job schedule).shared.next then job.found lint i else [] := by
  have hnone : ((init workers).follow job schedule).workers.flatMap
      (Phase.undelivered job lint i) = [] := by
    refine List.flatMap_eq_nil_iff.2 fun p hp => ?_
    obtain ⟨outcome, rfl⟩ := finished_of_isDone h hp
    rfl
  rw [← delivered_follow workers hl schedule i, hnone, List.append_nil]

/-- Only diagnostics of files are delivered. -/
lemma lt_of_mem_delivered {schedule : List Nat} {x : Nat × Diagnostic} (hl : job.Lints lint)
    (h : x ∈ ((init workers).follow job schedule).shared.delivered) : x.1 < job.files.length := by
  by_contra hle
  have hall := delivered_follow workers hl schedule x.1
  have hfound : job.found lint x.1 = [] := by
    simp [Job.found, Job.found?_of_le (Nat.le_of_not_lt hle)]
  rw [hfound, ite_self] at hall
  have hnone := (List.append_eq_nil_iff.1 hall).1
  have hmem : x ∈ ((init workers).follow job schedule).shared.delivered.filter (·.1 == x.1) :=
    List.mem_filter.2 ⟨h, by simp⟩
  rw [deliveredOf, List.map_eq_nil_iff] at hnone
  rw [hnone] at hmem
  cases hmem

/-- The first of the errors is one of the errors. -/
lemma gather_of_error {ps : List Phase} (h : ∃ e, Phase.finished (.error e) ∈ ps) :
    ∃ e, gather ps = .error e ∧ Phase.finished (.error e) ∈ ps := by
  induction ps with
  | nil => simp at h
  | cons p ps ih =>
    by_cases hp : ∃ e, p = .finished (.error e)
    · obtain ⟨e, rfl⟩ := hp
      exact ⟨e, rfl, by simp⟩
    · have hrest : ∃ e, Phase.finished (.error e) ∈ ps := by
        obtain ⟨e, he⟩ := h
        exact ⟨e, (List.mem_cons.1 he).resolve_left fun heq => hp ⟨e, heq.symm⟩⟩
      obtain ⟨e, hgather, hmem⟩ := ih hrest
      refine ⟨e, ?_, List.mem_cons_of_mem p hmem⟩
      unfold gather
      split
      · next e' he' =>
        cases p with
        | finished outcome =>
          cases outcome with
          | error e'' => exact absurd ⟨e'', rfl⟩ hp
          | ok l => cases he'
        | _ => cases he'
      · rw [hgather]

/-- What workers without an error have set aside. -/
def setAside : Phase → List (Nat × LintError)
  | .finished (.ok l) => l
  | _ => []

lemma gather_of_ok {ps : List Phase} (h : ∀ p ∈ ps, ∃ l, p = .finished (.ok l)) :
    gather ps = .ok (ps.flatMap setAside) := by
  induction ps with
  | nil => rfl
  | cons p ps ih =>
    obtain ⟨l, rfl⟩ := h p (by simp)
    simp [gather, Phase.outcome?, ih fun q hq => h q (by simp [hq]), setAside]

end RunState

end EstreeLint.Lint
