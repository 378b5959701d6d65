import EstreeLint.Command.Listing
import EstreeLint.Proofs.Command.Files
import EstreeLint.Proofs.Lint.Overlap

/-!
What a run shows, file by file.

When the files have names of their own, the diagnostics of the files are all diagnostics, each once.
So what is left after the fixes is what has no fixes, and the exit code tells whether anything is.
-/

namespace EstreeLint.Command

open Lint

variable {files : List SourceFile} {ds : List Diagnostic} {r : Repair}

/-! ### The order -/

lemma compareDiagnostics_eq : compareDiagnostics =
    compareLex (compareOn fun d => d.file.toList.map Char.toNat)
      (compareLex (compareOn (·.range.start)) (compareOn (·.range.stop))) := rfl

instance : Std.TransCmp compareDiagnostics := by
  rw [compareDiagnostics_eq]
  infer_instance

/-- Diagnostics are put in order, and none is lost. -/
theorem sortDiagnostics_spec (ds : List Diagnostic) : (sortDiagnostics ds).Perm ds ∧
    (sortDiagnostics ds).Pairwise fun a b => (compareDiagnostics a b).isLE :=
  ⟨List.mergeSort_perm .., pairwise_mergeSort_key compareDiagnostics id ds⟩

/-! ### File by file -/

/-- What belongs to none of two classes at once is divided by them. -/
lemma filter_append_filter {α : Type} {p q : α → Bool} {as : List α}
    (h : ∀ a ∈ as, p a = true → q a = false) :
    (as.filter p ++ as.filter q).Perm (as.filter fun a => p a || q a) := by
  have hp : (as.filter fun a => p a || q a).filter p = as.filter p := by
    rw [List.filter_filter]
    exact List.filter_congr fun a _ => by cases p a <;> rfl
  have hq : (as.filter fun a => p a || q a).filter (fun a => !p a) = as.filter q := by
    rw [List.filter_filter]
    refine List.filter_congr fun a ha => ?_
    cases hpa : p a with
    | true => rw [h a ha hpa]; rfl
    | false => rfl
  have hperm := List.filter_append_perm p (as.filter fun a => p a || q a)
  rwa [hp, hq] at hperm

/-- The diagnostics of files are those that name one of them. -/
lemma diagnosticsOf_perm (hnames : (files.map (·.name)).Nodup) :
    (files.flatMap (diagnosticsOf · ds)).Perm
      (ds.filter fun d => (files.map (·.name)).contains d.file) := by
  induction files with
  | nil => simp
  | cons f files ih =>
    rw [List.map_cons, List.nodup_cons] at hnames
    rw [List.flatMap_cons, List.map_cons]
    -- No other file has the name of the first, so its diagnostics are apart from all others.
    refine ((ih hnames.2).append_left _).trans ?_
    refine (filter_append_filter fun d _ hd => ?_).trans (.of_eq ?_)
    · rw [beq_iff_eq.1 hd]
      simpa using hnames.1
    · exact List.filter_congr fun d _ => by rw [List.contains_cons]

/-- **File by file, all diagnostics are shown**, each of them once. -/
theorem flatMap_diagnosticsOf (hnames : (files.map (·.name)).Nodup)
    (hknown : ∀ d ∈ ds, d.file ∈ files.map (·.name)) :
    (files.flatMap (diagnosticsOf · ds)).Perm ds := by
  have hall : ds.filter (fun d => (files.map (·.name)).contains d.file) = ds :=
    List.filter_eq_self.2 fun d hd => List.contains_iff_mem.2 (hknown d hd)
  have hperm := @diagnosticsOf_perm files ds hnames
  rwa [hall] at hperm

/-- Nothing is listed only when there is nothing to list. -/
theorem listing_eq_nil_iff {format : Format} : listing format files ds = [] ↔ ds = [] := by
  rw [listing]
  cases ds with
  | nil => simp [diagnosticsOf]
  | cons d ds => simp

/-! ### After the fixes -/

namespace Repair

lemma mem_ofFiles (h : r ∈ ofFiles files ds) : r.file ∈ files ∧
    r.fixed = Fixed.ofDiagnostics r.file.text (diagnosticsOf r.file ds) := by
  obtain ⟨file, hfile, h⟩ := List.mem_filterMap.1 h
  cases hown : diagnosticsOf file ds with
  | nil =>
    rw [hown] at h
    cases h
  | cons d own =>
    rw [hown] at h
    obtain rfl := Option.some.inj h
    exact ⟨hfile, by rw [hown]⟩

lemma flatMap_remaining (files : List SourceFile) (ds : List Diagnostic) :
    (ofFiles files ds).flatMap (·.remaining) =
      (files.flatMap (diagnosticsOf · ds)).filter (!·.hasFixes) := by
  induction files with
  | nil => rfl
  | cons f files ih =>
    rw [List.flatMap_cons, List.filter_append, ← ih, ofFiles]
    cases hown : diagnosticsOf f ds with
    | nil => rw [List.filterMap_cons_none (by rw [hown]), List.filter_nil, List.nil_append, ofFiles]
    | cons d own => rw [List.filterMap_cons_some (by rw [hown]), List.flatMap_cons, ofFiles]

/-- **What is left after the fixes** is what has none. -/
theorem remaining_perm (hnames : (files.map (·.name)).Nodup)
    (hknown : ∀ d ∈ ds, d.file ∈ files.map (·.name)) :
    ((ofFiles files ds).flatMap (·.remaining)).Perm (ds.filter (!·.hasFixes)) := by
  rw [flatMap_remaining]
  exact (flatMap_diagnosticsOf hnames hknown).filter _

/-- Nothing is said of fixes that are left out if all of them are in place. -/
theorem notice?_eq_none_iff (h : r ∈ ofFiles files ds) : r.notice? = none ↔
    let fixes := (diagnosticsOf r.file ds).flatMap (·.fixes)
    Fix.accepted r.file.text fixes = Fix.sorted fixes := by
  rw [notice?, ← Fixed.rejected_eq_zero_iff, ← Fixed.ofDiagnostics, ← (mem_ofFiles h).2]
  simp

end Repair

lemma exitCode_eq_zero_iff {failed : Bool} : exitCode failed ds = 0 ↔ failed = false ∧ ds = [] := by
  cases failed <;> cases ds <;> simp [exitCode]

/-- **A run that fixes ends clean** if it has not failed and all diagnostics have fixes. -/
theorem exitCode_repaired (failed : Bool) (hnames : (files.map (·.name)).Nodup)
    (hknown : ∀ d ∈ ds, d.file ∈ files.map (·.name)) :
    exitCode failed ((Repair.ofFiles files ds).flatMap (·.remaining)) = 0 ↔
      failed = false ∧ ∀ d ∈ ds, d.hasFixes = true := by
  have hperm := Repair.remaining_perm hnames hknown
  rw [exitCode_eq_zero_iff, ← List.isEmpty_iff, hperm.isEmpty_eq, List.isEmpty_iff,
    List.filter_eq_nil_iff]
  simp

end EstreeLint.Command
