import EstreeLint.Proofs.Lint.Schedule
import Mathlib.Tactic.Abel

/-!
What has been done in a run, and what the workers still owe.

A file that is taken is owed until it has been counted, its diagnostics have been delivered or its
failure has been set aside. Each step pays for itself: what is booked and what is owed together are
always worth as much as the files that have been taken. When all workers have finished nothing is
owed, so all of it has been booked, whoever did it and in whatever order.
-/

namespace EstreeLint.Lint

open scoped BigOperators

/-! ### What linting gives -/

/-- What linting a file gives, with whatever host. -/
abbrev Linter := SourceFile → Except LintError (List Diagnostic)

namespace Job

/-- All hosts of a job lint a file alike. -/
def Lints (job : Job) (lint : Linter) : Prop :=
  ∀ w host, job.create w = .ok host → ∀ file ∈ job.files, lintFile host file = lint file

variable (job : Job) (lint : Linter)

/-- What linting the file at a place gives, if there is a file. -/
def verdict (i : Nat) : Option (Except LintError (List Diagnostic)) := job.files[i]?.map lint

/-- The diagnostics of the file at a place, unless it fails. -/
def found? (i : Nat) : Option (List Diagnostic) :=
  match job.verdict lint i with
  | some (.ok diagnostics) => some diagnostics
  | _ => none

/-- The diagnostics of the file at a place; none if it fails. -/
def found (i : Nat) : List Diagnostic := (job.found? lint i).getD []

/-- The failure of the file at a place. -/
def failure? (i : Nat) : Option LintError :=
  match job.verdict lint i with
  | some (.error e) => some e
  | _ => none

/-- A reason to give up a run that has the given number of workers. -/
inductive Causes (workers : Nat) : RunError → Prop
  | hostInit {w : Nat} {e : HostError} (hw : w < workers) (h : job.create w = .error e) :
    Causes workers (.hostInit e)
  | file {i : Nat} {e : LintError} (hp : job.policy = .failFast)
    (h : job.failure? lint i = some e) : Causes workers (.file e)

variable {job lint} {i : Nat}

lemma verdict_of_le (h : job.files.length ≤ i) : job.verdict lint i = none := by
  simp [verdict, h]

lemma found?_of_le (h : job.files.length ≤ i) : job.found? lint i = none := by
  simp [found?, verdict_of_le h]

lemma failure?_of_le (h : job.files.length ≤ i) : job.failure? lint i = none := by
  simp [failure?, verdict_of_le h]

lemma found_eq (h : i < job.files.length) :
    job.found lint i = (lint job.files[i]).toOption.getD [] := by
  simp only [found, found?, verdict, List.getElem?_eq_getElem h, Option.map_some]
  cases lint job.files[i] <;> rfl

lemma failure?_of_error {e : LintError} (h : job.verdict lint i = some (.error e)) :
    job.failure? lint i = some e := by simp only [failure?, h]

lemma lint_of_failure? {e : LintError} (h : job.failure? lint i = some e) :
    ∃ hi : i < job.files.length, lint job.files[i] = .error e := by
  have hi : i < job.files.length := by
    by_contra hle
    rw [failure?_of_le (Nat.le_of_not_lt hle)] at h
    cases h
  refine ⟨hi, ?_⟩
  simp only [failure?, verdict, List.getElem?_eq_getElem hi, Option.map_some] at h
  cases hlint : lint job.files[i] with
  | ok ds => simp [hlint] at h
  | error e' => simpa [hlint] using h

variable (lint) in
/-- A file either gives diagnostics or fails. -/
lemma found?_or_failure? (h : i < job.files.length) :
    (∃ ds, job.found? lint i = some ds ∧ job.failure? lint i = none ∧
      lint job.files[i] = .ok ds) ∨
    (∃ e, job.found? lint i = none ∧ job.failure? lint i = some e ∧
      lint job.files[i] = .error e) := by
  have hv : job.verdict lint i = some (lint job.files[i]) := by simp [verdict, h]
  simp only [found?, failure?, hv]
  cases lint job.files[i] with
  | ok ds => exact .inl ⟨ds, rfl, rfl, rfl⟩
  | error e => exact .inr ⟨e, rfl, rfl, rfl⟩

end Job

/-! ### What a worker can do -/

/-- A desk of the job: its host has been made, and nothing is set aside in a run that stops at the
first failure. -/
structure Desk.Staffed (job : Job) (desk : Desk) : Prop where
  host : ∃ w, job.create w = .ok desk.host
  isolated : job.policy = .failFast → desk.isolated = []

namespace Phase

variable (job : Job) (lint : Linter)

/-- A phase that a worker can be in, where there are so many workers. -/
def Valid (workers : Nat) : Phase → Prop
  | .starting => True
  | .looking desk | .taking desk | .delivering desk _ _ => desk.Staffed job
  | .linting desk index => desk.Staffed job ∧ index < job.files.length
  | .counting desk index diagnostics | .adding desk index diagnostics =>
    desk.Staffed job ∧ job.verdict lint index = some (.ok diagnostics)
  | .aborting cause | .finished (.error cause) => job.Causes lint workers cause
  | .finished (.ok isolated) => job.policy = .failFast → isolated = []

/-- All that worker `w` can do, from one phase to the next. -/
inductive Acts (w : Nat) : Phase → Shared → Phase → Shared → Prop
  | hire {host : Host} {s : Shared} (h : job.create w = .ok host) :
    Acts w .starting s (.looking { host }) { s with hosts := s.hosts + 1 }
  | hireNobody {e : HostError} {s : Shared} (h : job.create w = .error e) :
    Acts w .starting s (.aborting (.hostInit e)) { s with hosts := s.hosts + 1 }
  | look {desk : Desk} {s : Shared} (h : s.aborted = false) :
    Acts w (.looking desk) s (.taking desk) s
  | leave {desk : Desk} {s : Shared} (h : s.aborted = true) :
    Acts w (.looking desk) s (.finished (.ok desk.isolated)) s
  | take {desk : Desk} {s : Shared} (h : s.next < job.files.length) :
    Acts w (.taking desk) s (.linting desk s.next) { s with next := s.next + 1 }
  | runOut {desk : Desk} {s : Shared} (h : job.files.length ≤ s.next) :
    Acts w (.taking desk) s (.finished (.ok desk.isolated)) { s with next := s.next + 1 }
  | lint {desk : Desk} {i : Nat} {ds : List Diagnostic} {s : Shared}
    (h : job.verdict lint i = some (.ok ds)) : Acts w (.linting desk i) s (.counting desk i ds) s
  | giveUp {desk : Desk} {i : Nat} {e : LintError} {s : Shared}
    (h : job.verdict lint i = some (.error e)) (hp : job.policy = .failFast) :
    Acts w (.linting desk i) s (.aborting (.file e)) s
  | setAside {desk : Desk} {i : Nat} {e : LintError} {s : Shared}
    (h : job.verdict lint i = some (.error e)) (hp : job.policy = .isolate) :
    Acts w (.linting desk i) s (.looking { desk with isolated := desk.isolated ++ [(i, e)] }) s
  | count {desk : Desk} {i : Nat} {ds : List Diagnostic} {s : Shared} :
    Acts w (.counting desk i ds) s (.adding desk i ds) { s with linted := s.linted + 1 }
  | add {desk : Desk} {i : Nat} {ds : List Diagnostic} {s : Shared} :
    Acts w (.adding desk i ds) s (.delivering desk i ds)
      { s with reported := s.reported + ds.length }
  | deliver {desk : Desk} {i : Nat} {d : Diagnostic} {ds : List Diagnostic} {s : Shared} :
    Acts w (.delivering desk i (d :: ds)) s (.delivering desk i ds)
      { s with delivered := s.delivered ++ [(i, d)] }
  | goOn {desk : Desk} {i : Nat} {s : Shared} : Acts w (.delivering desk i []) s (.looking desk) s
  | abort {cause : RunError} {s : Shared} :
    Acts w (.aborting cause) s (.finished (.error cause)) { s with aborted := true }
  | rest {outcome : Except RunError (List (Nat × LintError))} {s : Shared} :
    Acts w (.finished outcome) s (.finished outcome) s

variable {job lint} {w workers : Nat} {p p' : Phase} {s s' : Shared}

/-- **A step is one of these actions.** -/
theorem acts_step (hl : job.Lints lint) (h : p.Valid job lint workers) :
    Acts job lint w p s (p.step job w s).1 (p.step job w s).2 := by
  cases p with
  | starting =>
    cases hc : job.create w with
    | ok host => simpa [step, hc] using .hire hc
    | error e => simpa [step, hc] using .hireNobody hc
  | looking desk =>
    cases ha : s.aborted with
    | true => simpa [step, ha] using .leave ha
    | false => simpa [step, ha] using .look ha
  | taking desk =>
    by_cases hlt : s.next < job.files.length
    · simpa [step, hlt] using .take hlt
    · simpa [step, hlt] using .runOut (Nat.le_of_not_lt hlt)
  | linting desk i =>
    obtain ⟨⟨⟨v, hv⟩, -⟩, hlt⟩ := h
    have hfile : job.files[i]? = some job.files[i] := List.getElem?_eq_getElem hlt
    have hlint := hl v _ hv _ (List.getElem_mem hlt)
    have hverdict : job.verdict lint i = some (lint job.files[i]) := by simp [Job.verdict, hlt]
    cases hresult : lint job.files[i] with
    | ok ds =>
      rw [hresult] at hlint hverdict
      simpa [step, hfile, hlint] using .lint hverdict
    | error e =>
      rw [hresult] at hlint hverdict
      cases hp : job.policy with
      | failFast => simpa [step, hfile, hlint, afterFailure, hp] using .giveUp hverdict hp
      | isolate => simpa [step, hfile, hlint, afterFailure, hp] using .setAside hverdict hp
  | counting desk i ds => exact .count
  | adding desk i ds => exact .add
  | delivering desk i ds =>
    cases ds with
    | nil => exact .goOn
    | cons d ds => exact .deliver
  | aborting cause => exact .abort
  | finished outcome => exact .rest

lemma Acts.valid (h : Acts job lint w p s p' s') (hw : w < workers)
    (hp : p.Valid job lint workers) : p'.Valid job lint workers := by
  cases h with
  | hire h => exact ⟨⟨w, h⟩, fun _ => rfl⟩
  | hireNobody h => exact .hostInit hw h
  | look | count => exact hp
  | leave | runOut => exact hp.isolated
  | take h => exact ⟨hp, h⟩
  | lint h => exact ⟨hp.1, h⟩
  | giveUp h hpolicy => exact .file hpolicy (Job.failure?_of_error h)
  | setAside _ hpolicy => exact ⟨hp.1.host, fun hfast => by rw [hfast] at hpolicy; cases hpolicy⟩
  | add => exact hp.1
  | deliver | goOn | abort | rest => exact hp

/-! ### What a worker owes -/

/-- The file that a worker is busy with. -/
def atHand : Phase → List Nat
  | .linting _ i | .counting _ i _ | .adding _ i _ | .delivering _ i _ => [i]
  | _ => []

variable (job lint)

/-- The diagnostics of file `i` that a worker has yet to deliver. -/
def undelivered (i : Nat) : Phase → List Diagnostic
  | .linting _ j => if j = i then job.found lint i else []
  | .counting _ j ds | .adding _ j ds | .delivering _ j ds => if j = i then ds else []
  | _ => []

/-- Files that a worker has yet to count. -/
def uncounted : Phase → Nat
  | .linting _ i => (job.found? lint i).elim 0 fun _ => 1
  | .counting _ _ _ => 1
  | _ => 0

/-- Diagnostics that a worker has yet to count. -/
def unadded : Phase → Nat
  | .linting _ i => (job.found lint i).length
  | .counting _ _ ds | .adding _ _ ds => ds.length
  | _ => 0

/-- Failures that a worker has met, in a run that goes on, or is about to meet. -/
def unreturned : Phase → Multiset (Nat × LintError)
  | .looking desk | .taking desk | .counting desk _ _ | .adding desk _ _ | .delivering desk _ _ =>
    desk.isolated
  | .linting desk i => desk.isolated + ((job.failure? lint i).map (i, ·)).toList
  | .finished (.ok isolated) => isolated
  | _ => 0

variable {job lint}

variable {M : Type} [AddCommMonoid M]

/-- What an action adds to the worth of the files that have been taken. -/
def gain (worth : Nat → M) (s : Shared) : Phase → M
  | .taking _ => worth s.next
  | _ => 0

lemma Acts.sum_gain (h : Acts job lint w p s p' s') (worth : Nat → M) :
    ∑ i ∈ Finset.range s'.next, worth i =
      (∑ i ∈ Finset.range s.next, worth i) + p.gain worth s := by
  cases h with
  | take | runOut => exact Finset.sum_range_succ worth s.next
  | _ => exact (add_zero _).symm

end Phase

/-! ### Balance -/

namespace RunState

variable {job : Job} {lint : Linter} {s : RunState} {workers : Nat}

/-- The phases of a run can come up, and there are so many workers. -/
structure Valid (job : Job) (lint : Linter) (workers : Nat) (s : RunState) : Prop where
  length : s.workers.length = workers
  phases : ∀ p ∈ s.workers, p.Valid job lint workers

lemma valid_init : (init workers).Valid job lint workers := by
  refine ⟨by simp [init], fun p hp => ?_⟩
  rw [List.eq_of_mem_replicate hp]
  trivial

lemma Valid.act {s s' : Shared} {before after : List Phase} {p p' : Phase}
    (h : Valid job lint workers ⟨s, before ++ p :: after⟩)
    (hacts : Phase.Acts job lint before.length p s p' s') :
    Valid job lint workers ⟨s', before ++ p' :: after⟩ := by
  refine ⟨by simpa using h.length, fun q hq => ?_⟩
  simp only [List.mem_append, List.mem_cons] at hq
  rcases hq with hq | rfl | hq
  · exact h.phases q (by simp [hq])
  · have hw : before.length < workers := by simp [← h.length]
    exact hacts.valid hw (h.phases p (by simp))
  · exact h.phases q (by simp [hq])

/-- **What every action keeps holds throughout a run**, of the state and of what has been done. -/
theorem log_valid {f : Phase → Shared → List Nat} {P : List Nat → RunState → Prop}
    (hl : job.Lints lint) (hinit : P [] (init workers))
    (hstep : ∀ done s s' before p p' after, Phase.Acts job lint before.length p s p' s' →
      P done ⟨s, before ++ p :: after⟩ → P (done ++ f p s) ⟨s', before ++ p' :: after⟩)
    (schedule : List Nat) :
    ((init workers).follow job schedule).Valid job lint workers ∧
      P (log job f (init workers) schedule) ((init workers).follow job schedule) := by
  refine log_invariant (P := fun done s => s.Valid job lint workers ∧ P done s)
    ⟨valid_init, hinit⟩ ?_ schedule
  rintro done s before p after ⟨hvalid, hP⟩
  have hacts := Phase.acts_step (w := before.length) (s := s) hl (hvalid.phases p (by simp))
  exact ⟨hvalid.act hacts, hstep done s _ before p _ after hacts hP⟩

/-- What every action keeps of the state holds throughout a run. -/
theorem follow_valid {P : RunState → Prop} (hl : job.Lints lint) (hinit : P (init workers))
    (hstep : ∀ s s' before p p' after, Phase.Acts job lint before.length p s p' s' →
      P ⟨s, before ++ p :: after⟩ → P ⟨s', before ++ p' :: after⟩)
    (schedule : List Nat) :
    ((init workers).follow job schedule).Valid job lint workers ∧
      P ((init workers).follow job schedule) :=
  log_valid (f := fun _ _ => []) (P := fun _ => P) hl hinit (fun _ => hstep) schedule

theorem valid_follow (hl : job.Lints lint) (schedule : List Nat) :
    ((init workers).follow job schedule).Valid job lint workers :=
  (follow_valid (P := fun _ => True) hl trivial (fun _ _ _ _ _ _ _ _ => trivial) schedule).1

section Balance

variable {M : Type} [AddCommMonoid M]

/-- What is booked and what the workers owe is worth the files that have been taken. -/
def Balanced (worth : Nat → M) (booked : Shared → M) (owed : Phase → M) (s : RunState) : Prop :=
  booked s.shared + (s.workers.map owed).sum = ∑ i ∈ Finset.range s.shared.next, worth i

/-- **If each action pays for itself, the books of a run are balanced.** -/
theorem balanced_follow {worth : Nat → M} {booked : Shared → M} {owed : Phase → M}
    (hl : job.Lints lint) (hbooked : booked {} = 0) (howed : owed .starting = 0)
    (hpays : ∀ {w p p' s s'}, Phase.Acts job lint w p s p' s' →
      booked s' + owed p' = booked s + owed p + p.gain worth s)
    (schedule : List Nat) :
    Balanced worth booked owed ((init workers).follow job schedule) := by
  refine (follow_valid hl ?_ ?_ schedule).2
  · simp [Balanced, init, hbooked, howed]
  · intro s s' before p p' after hacts hbalance
    simp only [Balanced, List.map_append, List.map_cons, List.sum_append, List.sum_cons]
      at hbalance ⊢
    rw [hacts.sum_gain, ← hbalance]
    calc booked s' + ((before.map owed).sum + (owed p' + (after.map owed).sum))
        = booked s' + owed p' + ((before.map owed).sum + (after.map owed).sum) := by abel
      _ = booked s + owed p + p.gain worth s +
            ((before.map owed).sum + (after.map owed).sum) := by rw [hpays hacts]
      _ = _ := by abel

end Balance

variable (hl : job.Lints lint) (schedule : List Nat)

include hl

/-- Each file that gives diagnostics is counted once. -/
lemma linted_follow :
    Balanced (fun i => (job.found? lint i).elim 0 fun _ => 1) Shared.linted
      (Phase.uncounted job lint) ((init workers).follow job schedule) := by
  refine balanced_follow hl rfl rfl (fun h => ?_) schedule
  cases h with
  | runOut h => simp [Phase.uncounted, Phase.gain, Job.found?_of_le h]
  | lint h | giveUp h | setAside h => simp [Phase.uncounted, Phase.gain, Job.found?, h]
  | _ => simp [Phase.uncounted, Phase.gain]

/-- Each diagnostic is counted once. -/
lemma reported_follow :
    Balanced (fun i => (job.found lint i).length) Shared.reported (Phase.unadded job lint)
      ((init workers).follow job schedule) := by
  refine balanced_follow hl rfl rfl (fun h => ?_) schedule
  cases h with
  | runOut h => simp [Phase.unadded, Phase.gain, Job.found, Job.found?_of_le h]
  | lint h | giveUp h | setAside h => simp [Phase.unadded, Phase.gain, Job.found, Job.found?, h]
  | _ => simp [Phase.unadded, Phase.gain]

variable (workers) in
/-- In a run that goes on each failure is set aside once. -/
lemma failures_follow (hp : job.policy = .isolate) :
    Balanced (fun i => (((job.failure? lint i).map (i, ·)).toList : Multiset (Nat × LintError)))
      (fun _ => 0) (Phase.unreturned job lint) ((init workers).follow job schedule) := by
  refine balanced_follow hl rfl rfl (fun h => ?_) schedule
  cases h with
  | runOut h => simp [Phase.unreturned, Phase.gain, Job.failure?_of_le h]
  | giveUp h hfast => rw [hfast] at hp; cases hp
  | lint h => simp [Phase.unreturned, Phase.gain, Job.failure?, h]
  | setAside h =>
    simp [Phase.unreturned, Phase.gain, Job.failure?_of_error h, ← Multiset.coe_add]
  | _ => simp [Phase.unreturned, Phase.gain]

/-! ### Deliveries -/

omit hl in
lemma flatMap_init {α : Type} {f : Phase → List α} (h : f .starting = []) :
    (init workers).workers.flatMap f = [] :=
  List.flatMap_eq_nil_iff.2 fun p hp => by rw [List.eq_of_mem_replicate hp, h]

omit hl in
/-- Only a worker that is busy with a file owes diagnostics of it. -/
lemma undelivered_eq_nil {i : Nat} {ps : List Phase} (h : i ∉ ps.flatMap Phase.atHand) :
    ps.flatMap (Phase.undelivered job lint i) = [] := by
  refine List.flatMap_eq_nil_iff.2 fun p hp => ?_
  have hi : i ∉ p.atHand := fun hi => h (List.mem_flatMap.2 ⟨p, hp, hi⟩)
  cases p <;> simp_all [Phase.undelivered, Phase.atHand, eq_comm]

/-- No file is in the hands of two workers, and only files that have been taken are. -/
structure Sole (s : RunState) : Prop where
  nodup : (s.workers.flatMap Phase.atHand).Nodup
  taken : ∀ i ∈ s.workers.flatMap Phase.atHand, i < s.shared.next

omit hl in
lemma Sole.act {s s' : Shared} {before after : List Phase} {p p' : Phase} {w : Nat}
    (hacts : Phase.Acts job lint w p s p' s') (h : Sole ⟨s, before ++ p :: after⟩) :
    Sole ⟨s', before ++ p' :: after⟩ := by
  obtain ⟨hnodup, htaken⟩ := h
  simp only [List.flatMap_append, List.flatMap_cons] at hnodup htaken
  refine ⟨?_, ?_⟩ <;> simp only [List.flatMap_append, List.flatMap_cons]
  · cases hacts with
    | take h =>
      have hfree : s.next ∉ before.flatMap Phase.atHand ++ after.flatMap Phase.atHand :=
        fun hi => Nat.lt_irrefl _ (htaken _ (by simpa [Phase.atHand] using hi))
      have hrest : (before.flatMap Phase.atHand ++ after.flatMap Phase.atHand).Nodup := by
        simpa [Phase.atHand] using hnodup
      exact List.perm_middle.nodup_iff.2 (List.nodup_cons.2 ⟨hfree, hrest⟩)
    | giveUp | setAside | goOn => exact hnodup.sublist (by simp [Phase.atHand])
    | _ => exact hnodup
  · intro i hi
    cases hacts with
    | take h =>
      simp only [Phase.atHand, List.mem_append, List.mem_singleton] at hi
      rcases hi with hi | rfl | hi
      · exact Nat.lt_succ_of_lt (htaken i (by simp [hi]))
      · exact Nat.lt_succ_self _
      · exact Nat.lt_succ_of_lt (htaken i (by simp [hi]))
    | runOut h => exact Nat.lt_succ_of_lt (htaken i hi)
    | giveUp | setAside | goOn =>
      refine htaken i ?_
      simp only [Phase.atHand, List.mem_append, List.nil_append] at hi ⊢
      tauto
    | _ => exact htaken i hi

/-- The diagnostics of file `i` that have been delivered, in order. -/
def deliveredOf (s : RunState) (i : Nat) : List Diagnostic :=
  (s.shared.delivered.filter (·.1 == i)).map (·.2)

variable (workers) in
/-- **What has been delivered of a file, and what its worker has yet to deliver, are its
diagnostics**, in the order in which they were reported. -/
lemma delivered_follow (i : Nat) :
    ((init workers).follow job schedule).deliveredOf i ++
        ((init workers).follow job schedule).workers.flatMap (Phase.undelivered job lint i) =
      if i < ((init workers).follow job schedule).shared.next then job.found lint i else [] := by
  refine (follow_valid (P := fun s => s.Sole ∧ s.deliveredOf i ++
    s.workers.flatMap (Phase.undelivered job lint i) =
      if i < s.shared.next then job.found lint i else []) hl ⟨⟨?_, ?_⟩, ?_⟩ ?_ schedule).2.2
  · simp [flatMap_init (f := Phase.atHand) rfl]
  · simp [flatMap_init (f := Phase.atHand) rfl]
  · rw [flatMap_init rfl]
    rfl
  · rintro s s' before p p' after hacts ⟨hsole, heq⟩
    refine ⟨hsole.act hacts, ?_⟩
    obtain ⟨hnodup, htaken⟩ := hsole
    simp only [deliveredOf, List.flatMap_append, List.flatMap_cons] at hnodup htaken heq ⊢
    cases hacts with
    | take h =>
      by_cases hi : i = s.next
      · subst hi
        have hnil : List.map (·.2) (s.delivered.filter (·.1 == s.next)) = [] ∧
            before.flatMap (Phase.undelivered job lint s.next) = [] ∧
            after.flatMap (Phase.undelivered job lint s.next) = [] := by
          simpa only [Nat.lt_irrefl, if_false, List.append_eq_nil_iff, Phase.undelivered, true_and]
            using heq
        simp [hnil, Phase.undelivered]
      · have hlt : i < s.next + 1 ↔ i < s.next := by omega
        simpa [Phase.undelivered, hlt, Ne.symm hi] using heq
    | runOut h =>
      rw [show (if i < s.next + 1 then job.found lint i else []) =
        if i < s.next then job.found lint i else [] from ?_]
      · exact heq
      · by_cases hi : i < job.files.length
        · simp [show i < s.next + 1 by omega, show i < s.next by omega]
        · simp [Job.found, Job.found?_of_le (Nat.le_of_not_lt hi)]
    | @lint desk j ds _ h =>
      have hsame : Phase.undelivered job lint i (.counting desk j ds) =
          Phase.undelivered job lint i (.linting desk j) := by
        by_cases hj : j = i
        · subst hj
          simp [Phase.undelivered, Job.found, Job.found?, h]
        · simp [Phase.undelivered, hj]
      rw [hsame]
      exact heq
    | @giveUp desk j e _ h _ | @setAside desk j e _ h _ =>
      have hnone : Phase.undelivered job lint i (.linting desk j) = [] := by
        by_cases hj : j = i
        · subst hj
          simp [Phase.undelivered, Job.found, Job.found?, h]
        · simp [Phase.undelivered, hj]
      rw [hnone] at heq
      exact heq
    | @deliver desk j d ds =>
      by_cases hj : j = i
      · subst hj
        have hbefore : j ∉ before.flatMap Phase.atHand := fun hmem =>
          List.disjoint_of_nodup_append hnodup hmem (by simp [Phase.atHand])
        rw [undelivered_eq_nil hbefore] at heq ⊢
        simpa [Phase.undelivered] using heq
      · simpa [Phase.undelivered, hj] using heq
    | goOn => simpa [Phase.undelivered] using heq
    | _ => exact heq

end RunState

end EstreeLint.Lint
