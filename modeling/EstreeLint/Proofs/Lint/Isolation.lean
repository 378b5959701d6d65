import EstreeLint.Proofs.Lint.Outcome

/-!
Runs that go on past failures.

Nobody gives up in such a run once all hosts have been made, so the workers leave only when no file
is left. Then all files have been linted and all that was found has been delivered, and the failures
that the workers set aside are those of all files.
-/

namespace EstreeLint.Lint

open scoped BigOperators

namespace RunState

variable {job : Job} {lint : Linter} {workers : Nat} {schedule : List Nat}

/-- A run that is to go on has no reason to be given up. -/
lemma not_causes (hp : job.policy = .isolate) (hc : ∀ w < workers, ∃ host, job.create w = .ok host)
    (e : RunError) : ¬ job.Causes lint workers e := by
  rintro (⟨hw, h⟩ | ⟨hfast, -⟩)
  · obtain ⟨host, hhost⟩ := hc _ hw
    rw [h] at hhost
    cases hhost
  · rw [hp] at hfast
    cases hfast

/-- All files are worth what they are worth one by one. -/
lemma balanced_all {M : Type} [AddCommMonoid M] {worth : Nat → M} {booked : Shared → M}
    {owed : Phase → M} {s : RunState} (h : s.Balanced worth booked owed) (hdone : s.isDone = true)
    (howed : ∀ outcome, owed (.finished outcome) = 0) (hnext : job.files.length ≤ s.shared.next)
    (hworth : ∀ i, job.files.length ≤ i → worth i = 0) :
    booked s.shared = ∑ i ∈ Finset.range job.files.length, worth i := by
  rw [← Finset.eventually_constant_sum hworth hnext, ← h, sum_owed_of_isDone hdone howed, add_zero]

lemma found_eq_nil {i : Nat} (h : job.files.length ≤ i) : job.found lint i = [] := by
  simp [Job.found, Job.found?_of_le h]

lemma sum_toList {α β : Type} (f : Nat → Option α) (g : Nat → α → β) (n : Nat) :
    ∑ i ∈ Finset.range n, (((f i).map (g i)).toList : Multiset β) =
      ((List.range n).filterMap fun i => (f i).map (g i) : List β) := by
  induction n with
  | zero => rfl
  | succ n ih =>
    rw [Finset.sum_range_succ, ih, List.range_succ, List.filterMap_append, Multiset.coe_add]
    cases h : f n <;> simp [h]

lemma coe_setAside {ps : List Phase} (h : ∀ p ∈ ps, ∃ l, p = .finished (.ok l)) :
    (ps.map (Phase.unreturned job lint)).sum =
      (ps.flatMap setAside : Multiset (Nat × LintError)) := by
  induction ps with
  | nil => rfl
  | cons p ps ih =>
    obtain ⟨l, rfl⟩ := h p (by simp)
    rw [List.map_cons, List.sum_cons, ih fun q hq => h q (by simp [hq]), List.flatMap_cons]
    rfl

section

variable (hworkers : 0 < workers) (hp : job.policy = .isolate) (hl : job.Lints lint)
  (hc : ∀ w < workers, ∃ host, job.create w = .ok host)
  (hdone : ((init workers).follow job schedule).isDone = true)

include hworkers hp hl hc hdone

/-- **What the workers set aside are the failures of all files.** -/
lemma setAside_perm :
    (((init workers).follow job schedule).workers.flatMap setAside).Perm (job.failures lint) := by
  have hok := finished_ok hl hdone (not_causes hp hc)
  have hnext := length_le_next hl hworkers hok
  have hbalance := failures_follow workers hl schedule hp
  refine Multiset.coe_eq_coe.1 ?_
  rw [← coe_setAside hok, Job.failures, ← sum_toList,
    ← Finset.eventually_constant_sum (fun i hi => by simp [Job.failure?_of_le hi]) hnext,
    ← hbalance, zero_add]

lemma delivered_length :
    ((init workers).follow job schedule).shared.delivered.length =
      ∑ i ∈ Finset.range job.files.length, (job.found lint i).length :=
  balanced_all (deliveries_follow hl schedule) hdone (fun _ => rfl)
    (length_le_next hl hworkers (finished_ok hl hdone (not_causes hp hc)))
    fun i hi => by rw [found_eq_nil hi]; rfl

/-- The result of a run that goes on past failures. -/
lemma result_eq :
    ((init workers).follow job schedule).result =
      if job.errors lint = [] then
        .ok { files := job.files.length,
              diagnostics := ((init workers).follow job schedule).shared.delivered.length,
              workers }
      else .error (.isolated (job.errors lint)) := by
  have hok := finished_ok hl hdone (not_causes hp hc)
  have hnext := length_le_next hl hworkers hok
  have hperm := setAside_perm hworkers hp hl hc hdone
  have hgather := gather_of_ok hok
  have hlength : ((init workers).follow job schedule).workers.length = workers := by simp [init]
  unfold result
  rw [hgather]
  cases hset : ((init workers).follow job schedule).workers.flatMap setAside with
  | nil =>
    rw [hset] at hperm
    have hnone : job.failures lint = [] := hperm.symm.eq_nil
    have herrors : job.errors lint = [] := by rw [← Job.map_failures, hnone, List.map_nil]
    have hlinted : ((init workers).follow job schedule).shared.linted = job.files.length := by
      rw [balanced_all (linted_follow hl schedule) hdone (fun _ => rfl) hnext
        fun i hi => by simp [Job.found?_of_le hi]]
      have hone : ∀ i ∈ Finset.range job.files.length,
          ((job.found? lint i).elim 0 fun _ => 1) = 1 := by
        intro i hi
        have hlt := Finset.mem_range.1 hi
        rcases Job.found?_or_failure? lint hlt with ⟨ds, hfound, -⟩ | ⟨e, -, hfailure, -⟩
        · simp [hfound]
        · have := List.filterMap_eq_nil_iff.1 hnone i (List.mem_range.2 hlt)
          simp [hfailure] at this
      rw [Finset.sum_congr rfl hone]
      simp
    have hreported : ((init workers).follow job schedule).shared.reported =
        ((init workers).follow job schedule).shared.delivered.length := by
      rw [delivered_length hworkers hp hl hc hdone]
      exact balanced_all (reported_follow hl schedule) hdone (fun _ => rfl) hnext
        fun i hi => by rw [found_eq_nil hi]; rfl
    simp [herrors, hlinted, hreported, hlength]
  | cons x xs =>
    rw [hset] at hperm
    have hsorted : (x :: xs).mergeSort (fun a b => a.1 ≤ b.1) = job.failures lint := by
      refine @List.Perm.eq_of_pairwise _ (fun a b => a.1 ≤ b.1) _ _ ?_ ?_ ?_
        ((List.mergeSort_perm _ _).trans hperm)
      · intro a b ha hb hab hba
        exact Job.eq_of_mem_failures (hperm.subset ((List.mergeSort_perm _ _).subset ha)) hb
          (Nat.le_antisymm hab hba)
      · have hpairwise := @List.pairwise_mergeSort _
          (fun a b : Nat × LintError => decide (a.1 ≤ b.1))
          (fun a b c => by simpa using Nat.le_trans)
          (fun a b => by simpa using Nat.le_total a.1 b.1) (x :: xs)
        simpa using hpairwise
      · exact Job.pairwise_failures.imp Nat.le_of_lt
    have herrors : job.errors lint ≠ [] := by
      rw [← Job.map_failures]
      intro hnil
      rw [List.map_eq_nil_iff.1 hnil] at hperm
      cases hperm.eq_nil
    simp only [herrors, if_false]
    rw [hsorted, Job.map_failures]

end

end RunState

/-- What a summary counts, whoever did it. -/
def Summary.totals (x : Summary) : Nat × Nat := (x.files, x.diagnostics)

open RunState in
/-- **A run that goes on past failures does the same in every order of steps and with any number of
workers.** It comes to an end; each file is handed out and linted once; what was found in it is
delivered once and in order, and of a file that fails nothing is; and the result tells of all
failures in the order of the files, as that of one worker alone does. -/
theorem isolated_runs_agree (job : Job) (lint : Linter) (workers : Nat) (hworkers : 0 < workers)
    (hp : job.policy = .isolate) (hl : job.Lints lint)
    (hc : ∀ w < workers, ∃ host, job.create w = .ok host) :
    (∀ schedule, (∀ w < workers, job.quota w ≤ schedule.count w) →
      ((init workers).follow job schedule).isDone = true) ∧
    (∀ schedule, let s := (init workers).follow job schedule
      s.isDone = true →
        handedOut job (init workers) schedule = List.range job.files.length ∧
        (lintings job (init workers) schedule).Perm (List.range job.files.length) ∧
        (∀ i (hi : i < job.files.length),
          s.deliveredOf i = (lint job.files[i]).toOption.getD []) ∧
        (∀ x ∈ s.shared.delivered, x.1 < job.files.length) ∧
        s.result =
          (if job.errors lint = [] then
            .ok { files := job.files.length, diagnostics := s.shared.delivered.length, workers }
          else .error (.isolated (job.errors lint))) ∧
        ∀ alone, let t := (init 1).follow job alone
          t.isDone = true → s.result.map Summary.totals = t.result.map Summary.totals) ∧
    ∀ bundler create script bundle options, bundler script = .ok bundle →
      job = { files := job.files, policy := options.policy, create := fun _ => create bundle } →
      workers = options.effectiveWorkers job.files.length →
      ∃ schedule, ((init workers).follow job schedule).isDone = true ∧
        run bundler create script job.files options =
          ((init workers).follow job schedule).outcome := by
  refine ⟨fun schedule => isDone_of_quota, fun schedule => ?_, ?_⟩
  · intro s hdone
    have hnext :=
      length_le_next hl hworkers (finished_ok hl hdone (not_causes hp hc))
    have hresult := result_eq hworkers hp hl hc hdone
    have htotal := delivered_length hworkers hp hl hc hdone
    refine ⟨?_, ?_, fun i hi => ?_, fun x hx => ?_, hresult, fun alone => ?_⟩
    · rw [handedOut_eq hl, Nat.min_eq_right hnext]
    · have hlints := lintings_add_toLint workers hl schedule
      rw [sum_owed_of_isDone hdone fun _ => rfl, add_zero, Nat.min_eq_right hnext] at hlints
      exact Multiset.coe_eq_coe.1 hlints
    · rw [deliveredOf_of_isDone hl hdone, if_pos (Nat.lt_of_lt_of_le hi hnext), Job.found_eq hi]
    · exact lt_of_mem_delivered hl hx
    · intro t hdone'
      have hc' : ∀ w < 1, ∃ host, job.create w = .ok host :=
        fun w hw => hc w (Nat.lt_of_lt_of_le hw hworkers)
      have hresult' := result_eq Nat.one_pos hp hl hc' hdone'
      have htotal' := delivered_length Nat.one_pos hp hl hc' hdone'
      rw [hresult, hresult', htotal, htotal']
      split <;> rfl
  · rintro bundler create script bundle options hbundle hjob rfl
    exact run_follows hbundle hjob

/-! A run of two workers over three files, one of which does not parse. -/

/-- A host that says the same twice of every file. -/
def insistent : Host where
  evaluate _ :=
    .ok (List.replicate 2
      { rule := "insist", location := ⟨⟨1, 0⟩, ⟨1, 1⟩⟩, message := ⟨"again", "Again."⟩ })

def threeFiles : Job where
  files := [.parse "a.ts" ";".toList, .parse "b.ts" "(".toList, .parse "c.ts" ";".toList]
  policy := .isolate
  create _ := .ok insistent

/-- Two workers that take turns. -/
def takingTurns : List Nat := (List.replicate 26 [1, 0]).flatten

theorem threeFiles_agree :
    ((RunState.init 2).follow threeFiles takingTurns).result =
        .error (.isolated [.parse "b.ts" "Expression expected."]) ∧
      RunState.handedOut threeFiles (.init 2) takingTurns = [0, 1, 2] ∧
      ((RunState.init 2).follow threeFiles takingTurns).deliveredOf 1 = [] := by
  have hl : threeFiles.Lints (lintFile insistent) := by
    intro w host hhost file _
    cases hhost
    rfl
  have herrors : threeFiles.errors (lintFile insistent) =
      [.parse "b.ts" "Expression expected."] := by decide +kernel
  have hfails : (lintFile insistent threeFiles.files[1]).toOption.getD [] = [] := by decide +kernel
  have hquota : ∀ w < 2, threeFiles.quota w ≤ takingTurns.count w := by decide +kernel
  obtain ⟨hends, hagree, -⟩ := isolated_runs_agree threeFiles (lintFile insistent) 2 (by decide) rfl
    hl fun _ _ => ⟨insistent, rfl⟩
  obtain ⟨hhanded, -, hdelivered, -, hresult, -⟩ := hagree takingTurns (hends takingTurns hquota)
  refine ⟨?_, hhanded, ?_⟩
  · rw [hresult, herrors]
    rfl
  · rw [hdelivered 1 (by decide), hfails]

end EstreeLint.Lint
