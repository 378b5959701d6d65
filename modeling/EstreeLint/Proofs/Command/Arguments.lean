import EstreeLint.Command.Arguments
import EstreeLint.Command.LogFormat
import EstreeLint.Proofs.Except
import EstreeLint.Proofs.Text.Split

/-!
Settings as they are written, and what is known of arguments that are accepted.

The names of settings are read in any case and with white space around them, and a count is read as
a row of digits, behind a plus sign or not, if it fits.

A step takes up one argument, and keeps it as a path or as part of a setting: so the paths that come
out are arguments, in their order. No value comes out empty or too large, and behind two dashes all
that follows is a path.
-/

namespace EstreeLint

open Text (Solid lowered isWhiteSpace)

variable {u v w cs : List Char}

/-! ### Names -/

namespace Command

lemma LogFormat.solid_name (f : LogFormat) : Solid (lowered f.name.toList) := by
  cases f <;> decide

/-- **A form of the log is read by its name.** -/
theorem LogFormat.parse_name (f : LogFormat) (hu : ∀ c ∈ u, isWhiteSpace c = true)
    (hv : ∀ c ∈ v, isWhiteSpace c = true) (hw : lowered w = lowered f.name.toList) :
    LogFormat.parse (String.ofList (u ++ w ++ v)) = f := by
  have hread := Text.lowered_trim_pad hu hv (hw ▸ f.solid_name)
  rw [LogFormat.parse, String.toList_ofList, hread, hw]
  cases f <;> rfl

end Command

namespace Lint

lemma FailurePolicy.solid_name (p : FailurePolicy) : Solid (lowered p.name.toList) := by
  cases p <;> decide

/-- **A policy is read by its name.** -/
theorem FailurePolicy.parse_name (p : FailurePolicy) (hu : ∀ c ∈ u, isWhiteSpace c = true)
    (hv : ∀ c ∈ v, isWhiteSpace c = true) (hw : lowered w = lowered p.name.toList) :
    FailurePolicy.parse (String.ofList (u ++ w ++ v)) = .ok p := by
  have hread := Text.lowered_trim_pad hu hv (hw ▸ p.solid_name)
  rw [FailurePolicy.parse, String.toList_ofList, hread, hw]
  cases p <;> rfl

/-! ### Counts -/

lemma foldl_digits (ds : List Char) (n : Nat) :
    ds.foldl (fun n c => n * 10 + (c.toNat - '0'.toNat)) n = Nat.ofDigitChars 10 ds n := by
  simp only [Nat.ofDigitChars_eq_foldl, Nat.mul_comm]

/-- Digits that stand for a count that fits. -/
structure Counts (ds : List Char) (n : Nat) : Prop where
  nonempty : ds ≠ []
  digits : ∀ d ∈ ds, d.isDigit = true
  value : n = Nat.ofDigitChars 10 ds 0
  fits : n < countLimit

lemma counts_iff {ds : List Char} {n : Nat} :
    (if ds.isEmpty || !ds.all Char.isDigit then none
      else
        let n := ds.foldl (fun n c => n * 10 + (c.toNat - '0'.toNat)) 0
        if n < countLimit then some n else none) = some n ↔ Counts ds n := by
  simp only [foldl_digits]
  constructor
  · intro h
    obtain ⟨hdigits, h⟩ := Option.ite_none_left_eq_some.1 h
    obtain ⟨hfits, h⟩ := Option.ite_none_right_eq_some.1 h
    obtain rfl := Option.some.inj h
    rw [Bool.or_eq_true, not_or] at hdigits
    exact ⟨by simpa using hdigits.1, by simpa using hdigits.2, rfl, hfits⟩
  · rintro ⟨hne, hdigits, rfl, hfits⟩
    have hall : ¬ (ds.isEmpty || !ds.all Char.isDigit) = true := by simpa using ⟨hne, hdigits⟩
    rw [if_neg hall, if_pos hfits]

/-- **What is read as a count**: digits that stand for it, alone or behind a plus sign. -/
theorem readCount?_eq_some_iff {n : Nat} :
    readCount? cs = some n ↔ ∃ ds, (cs = ds ∨ cs = '+' :: ds) ∧ Counts ds n := by
  rw [readCount?, counts_iff]
  by_cases hsign : cs.head? = some '+'
  · obtain ⟨ds, rfl⟩ : ∃ ds, cs = '+' :: ds := by
      cases cs with
      | nil => cases hsign
      | cons c ds => exact ⟨ds, by rw [Option.some.inj hsign]⟩
    constructor
    · exact fun h => ⟨ds, .inr rfl, h⟩
    · rintro ⟨ds', rfl | heq, h⟩
      · cases h.digits '+' List.mem_cons_self
      · obtain rfl := List.tail_eq_of_cons_eq heq
        exact h
  · rw [if_neg (by simpa using hsign)]
    constructor
    · exact fun h => ⟨cs, .inl rfl, h⟩
    · rintro ⟨ds, rfl | rfl, h⟩
      · exact h
      · exact absurd rfl hsign

/-- A count that fits is read back. -/
theorem readCount?_toDigits {n : Nat} (h : n < countLimit) :
    readCount? (Nat.toDigits 10 n) = some n :=
  readCount?_eq_some_iff.2 ⟨_, .inl rfl, {
    nonempty := Nat.toDigits_ne_nil
    digits := fun _ hd => Nat.isDigit_of_mem_toDigits (by decide) (by decide) hd
    value := Nat.ofDigitChars_ten_toDigits.symm
    fits := h }⟩

namespace RunOptions

/-- The environment leaves a run at least one worker. -/
theorem workers_ofEnvironment {base : RunOptions} (e : Environment) (h : 1 ≤ base.workers) :
    1 ≤ (ofEnvironment base e).workers := by
  rw [ofEnvironment]
  cases e.workers.bind fun v => readCount? (Text.trim v.toList) with
  | none => exact h
  | some n => exact Nat.le_max_right n 1

end RunOptions

end Lint

end EstreeLint

namespace EstreeLint.Command

open Lint (countLimit)

namespace Reading

variable {r r' : Reading} {as ps : List (List Char)} {s : Setting} {v : List Char}

/-- The paths that wait to be checked. -/
def waiting (r : Reading) : List (List Char) :=
  match r.pending with
  | some (.paths values) => values
  | _ => []

/-- The paths that have been read. -/
def seen (r : Reading) : List (List Char) := r.paths ++ r.waiting

/-- What is known of a reading after the arguments `as`. -/
structure Sound (as : List (List Char)) (r : Reading) : Prop where
  rules : ∀ v ∈ r.rules, v ≠ []
  workers : ∀ n ∈ r.workers, n < countLimit
  flags : r.flags.Nodup
  paths : ∀ p ∈ r.paths, p ≠ []
  sublist : r.seen.Sublist as

/-- A step has taken up no path. -/
structure Same (r r' : Reading) : Prop where
  seen : r'.seen = r.seen
  only : r'.pathsOnly = r.pathsOnly

lemma Same.trans {r'' : Reading} (h : Same r r') (h' : Same r' r'') : Same r r'' :=
  ⟨h'.seen.trans h.seen, h'.only.trans h.only⟩

/-! ### One argument -/

lemma set_sound (h : Sound as r) (hr : r.set s v = .ok r') :
    Sound as r' ∧ Same r r' ∧ r'.pending = r.pending := by
  cases s with
  | rules =>
    rw [Reading.set] at hr
    split at hr
    · cases hr
    split at hr
    · cases hr
    next hne =>
    obtain rfl := Except.ok.inj hr
    refine ⟨{ h with rules := fun w hw => ?_ }, ⟨rfl, rfl⟩, rfl⟩
    obtain rfl := Option.some.inj hw
    simpa using hne
  | workers =>
    rw [Reading.set] at hr
    split at hr
    · cases hr
    split at hr
    · next n hn =>
      obtain rfl := Except.ok.inj hr
      refine ⟨{ h with workers := fun m hm => ?_ }, ⟨rfl, rfl⟩, rfl⟩
      obtain rfl := Option.some.inj hm
      obtain ⟨_, -, hcounts⟩ := Lint.readCount?_eq_some_iff.1 hn
      exact hcounts.fits
    · cases hr

lemma resolve_sound (h : Sound as r) (hr : r.resolve = .ok r') :
    Sound as r' ∧ Same r r' ∧ r'.pending = none := by
  rw [resolve] at hr
  split at hr
  · next hpending =>
    obtain rfl := Except.ok.inj hr
    have hseen : ({ r with pending := none } : Reading).seen = r.seen := by
      simp only [seen, waiting, hpending]
    exact ⟨{ h with sublist := hseen ▸ h.sublist }, ⟨hseen, rfl⟩, rfl⟩
  · cases hr
  · next hpending =>
    have hseen : ({ r with pending := none } : Reading).seen = r.seen := by
      simp only [seen, waiting, hpending]
    have hrest : Sound as { r with pending := none } := { h with sublist := hseen ▸ h.sublist }
    obtain ⟨hsound, hsame, hnone⟩ := set_sound hrest hr
    exact ⟨hsound, Same.trans ⟨hseen, rfl⟩ hsame, hnone⟩
  · next values hpending =>
    split at hr
    · cases hr
    next hne =>
    obtain rfl := Except.ok.inj hr
    have hseen : ({ r with pending := none, paths := r.paths ++ values } : Reading).seen =
        r.seen := by
      simp only [seen, waiting, hpending, List.append_nil]
    refine ⟨{ h with sublist := hseen ▸ h.sublist, paths := fun p hp => ?_ }, ⟨hseen, rfl⟩, rfl⟩
    rcases List.mem_append.1 hp with hp | hp
    · exact h.paths p hp
    · rintro rfl
      exact hne (List.any_eq_true.2 ⟨[], hp, rfl⟩)

lemma setFlag_sound {f : Flag} (h : Sound as r) (hr : r.setFlag f = .ok r') :
    Sound as r' ∧ Same r r' := by
  obtain ⟨r₁, hr₁, hr⟩ := bind_eq_ok_iff.1 hr
  obtain ⟨h₁, hsame, -⟩ := resolve_sound h hr₁
  split at hr
  · cases hr
  · cases hr
  · split at hr
    · cases hr
    next hnew =>
    obtain rfl := Except.ok.inj hr
    refine ⟨{ h₁ with flags := List.nodup_cons.2 ⟨?_, h₁.flags⟩ }, hsame.trans ⟨rfl, rfl⟩⟩
    simpa using hnew

lemma startSetting_sound {attached : Option (List Char)} (h : Sound as r)
    (hr : r.startSetting s attached = .ok r') : Sound as r' ∧ Same r r' := by
  obtain ⟨r₁, hr₁, hr⟩ := bind_eq_ok_iff.1 hr
  obtain ⟨h₁, hsame, hnone⟩ := resolve_sound h hr₁
  split at hr
  · obtain ⟨hsound, hsame', -⟩ := set_sound h₁ hr
    exact ⟨hsound, hsame.trans hsame'⟩
  · obtain rfl := Except.ok.inj hr
    have hseen : ({ r₁ with pending := some (.setting s none) } : Reading).seen = r₁.seen := by
      simp only [seen, waiting, hnone]
    exact ⟨{ h₁ with sublist := hseen ▸ h₁.sublist }, hsame.trans ⟨hseen, rfl⟩⟩

lemma long_sound {body : List Char} (h : Sound as r) (hr : r.long body = .ok r') :
    Sound as r' ∧ Same r r' := by
  simp only [long] at hr
  split at hr
  · cases hr
  · exact startSetting_sound h hr
  · split at hr
    · cases hr
    · exact setFlag_sound h hr

lemma short_sound {c : Char} {rest : List Char} (h : Sound as r) (hr : r.short c rest = .ok r') :
    Sound as r' ∧ Same r r' := by
  unfold short at hr
  split at hr
  · cases hr
  · exact setFlag_sound h hr
  · exact startSetting_sound h hr

lemma value_sound (h : Sound as r) (hr : r.value v = .ok r') :
    Sound (as ++ [v]) r' ∧ r'.pathsOnly = r.pathsOnly ∧
      (r.pathsOnly = true → r'.seen = r.seen ++ [v]) := by
  unfold value at hr
  split at hr
  · next hpending honly =>
    obtain rfl := Except.ok.inj hr
    refine ⟨{ h with sublist := ?_ }, rfl, fun hr => by rw [honly] at hr; cases hr⟩
    have hseen := h.sublist
    simp only [seen, waiting, hpending] at hseen ⊢
    exact hseen.trans (List.sublist_append_left _ _)
  · next values hpending =>
    obtain rfl := Except.ok.inj hr
    have hseen : ({ r with pending := some (.paths (values ++ [v])) } : Reading).seen =
        r.seen ++ [v] := by
      simp only [seen, waiting, hpending, List.append_assoc]
    exact ⟨{ h with sublist := hseen ▸ h.sublist.append (.refl [v]) }, rfl, fun _ => hseen⟩
  · obtain ⟨r₁, hr₁, hr⟩ := bind_eq_ok_iff.1 hr
    obtain ⟨h₁, hsame, hnone⟩ := resolve_sound h hr₁
    obtain rfl := Except.ok.inj hr
    have hseen : ({ r₁ with pending := some (.paths [v]) } : Reading).seen = r.seen ++ [v] := by
      rw [← hsame.seen]
      simp only [seen, waiting, hnone, List.append_nil]
    exact ⟨{ h₁ with sublist := hseen ▸ h.sublist.append (.refl [v]) }, hsame.only,
      fun _ => hseen⟩

/-- **A step keeps what is known of a reading.** -/
theorem read_sound (h : Sound as r) (hr : r.read v = .ok r') : Sound (as ++ [v]) r' := by
  have hlater {r' : Reading} (h : Sound as r') : Sound (as ++ [v]) r' :=
    { h with sublist := h.sublist.trans (List.sublist_append_left _ _) }
  unfold read at hr
  split at hr
  · exact (value_sound h hr).1
  · split at hr
    · obtain rfl := Except.ok.inj hr
      exact hlater { h with }
    · exact hlater (long_sound h hr).1
    · exact hlater (short_sound h hr).1
    · exact (value_sound h hr).1

/-! ### A row of arguments -/

lemma run_sound (h : Sound as r) (hr : ps.foldlM read r = .ok r') : Sound (as ++ ps) r' := by
  induction ps generalizing as r with
  | nil =>
    obtain rfl := Except.ok.inj hr
    rwa [List.append_nil]
  | cons p ps ih =>
    rw [List.foldlM_cons] at hr
    obtain ⟨r₁, hr₁, hr⟩ := bind_eq_ok_iff.1 hr
    rw [List.append_cons]
    exact ih (read_sound h hr₁) hr

lemma run_pathsOnly (h : Sound as r) (honly : r.pathsOnly = true)
    (hr : ps.foldlM read r = .ok r') : r'.seen = r.seen ++ ps := by
  induction ps generalizing as r with
  | nil =>
    obtain rfl := Except.ok.inj hr
    rw [List.append_nil]
  | cons p ps ih =>
    rw [List.foldlM_cons] at hr
    obtain ⟨r₁, hr₁, hr⟩ := bind_eq_ok_iff.1 hr
    have hvalue : r.value p = .ok r₁ := by
      unfold read at hr₁
      rwa [if_pos honly] at hr₁
    obtain ⟨h₁, honly₁, hseen⟩ := value_sound h hvalue
    rw [ih h₁ (honly₁.trans honly) hr, hseen honly, List.append_assoc, List.singleton_append]

lemma sound_nil : Sound [] {} where
  rules _ h := by cases h
  workers _ h := by cases h
  flags := List.nodup_nil
  paths _ h := by cases h
  sublist := .refl []

/-- What comes of a reading that is accepted. -/
lemma finish_eq_ok {a : Arguments} (h : Sound as r) (hr : r.finish = .ok a) :
    a.rules ≠ "" ∧ a.paths ≠ [] ∧ (∀ p ∈ a.paths, p ≠ "") ∧
      (∀ n ∈ a.workers, n < countLimit) ∧ a.paths = r.seen.map String.ofList := by
  obtain ⟨r₁, hr₁, hr⟩ := bind_eq_ok_iff.1 hr
  obtain ⟨h₁, hsame, hnone⟩ := resolve_sound h hr₁
  split at hr
  · cases hr
  next rules hrules =>
  split at hr
  · cases hr
  next hpaths =>
  obtain rfl := Except.ok.inj hr
  have hseen : r₁.paths = r.seen := by
    rw [← hsame.seen]
    simp only [seen, waiting, hnone, List.append_nil]
  refine ⟨fun he => ?_, fun he => ?_, fun p hp he => ?_, h₁.workers, by rw [hseen]⟩
  · exact h₁.rules rules hrules (String.ofList_eq_empty_iff.1 he)
  · exact hpaths (List.isEmpty_iff.2 (List.map_eq_nil_iff.1 he))
  · obtain ⟨cs, hcs, rfl⟩ := List.mem_map.1 hp
    exact h₁.paths cs hcs (String.ofList_eq_empty_iff.1 he)

end Reading

namespace Arguments

open Reading

variable {arguments : List String} {a : Arguments}

lemma parse_eq : parse arguments =
    (arguments.map String.toList).foldlM Reading.read {} >>= finish := by
  rw [parse, List.foldlM_map]

/-- What is known of arguments that have been accepted. -/
structure Accepted (arguments : List String) (a : Arguments) : Prop where
  rules : a.rules ≠ ""
  paths : a.paths ≠ [] ∧ ∀ p ∈ a.paths, p ≠ ""
  workers : ∀ n ∈ a.workers, n < countLimit
  sublist : a.paths.Sublist arguments

/-- **What comes of arguments that are accepted**: a script, a count that fits, and at least one
path; and the paths are arguments, in their order. -/
theorem parse_accepted (h : parse arguments = .ok a) : Accepted arguments a := by
  rw [parse_eq] at h
  obtain ⟨r, hr, hfinish⟩ := bind_eq_ok_iff.1 h
  have hsound := run_sound sound_nil hr
  obtain ⟨hrules, hne, hpaths, hworkers, hseen⟩ := finish_eq_ok hsound hfinish
  refine ⟨hrules, ⟨hne, hpaths⟩, hworkers, ?_⟩
  have hsublist := hsound.sublist.map String.ofList
  rw [List.nil_append, List.map_map] at hsublist
  rw [hseen]
  simpa [Function.comp_def] using hsublist

/-- **Behind two dashes there are only paths.** -/
theorem parse_dashes {before after : List String} (h : parse (before ++ "--" :: after) = .ok a) :
    after <:+ a.paths := by
  rw [parse_eq, List.map_append, List.map_cons, List.foldlM_append] at h
  obtain ⟨r, hr, hfinish⟩ := bind_eq_ok_iff.1 h
  obtain ⟨r₁, hr₁, hr⟩ := bind_eq_ok_iff.1 hr
  rw [List.foldlM_cons] at hr
  obtain ⟨r₂, hr₂, hr⟩ := bind_eq_ok_iff.1 hr
  have hsound := run_sound sound_nil hr₁
  have hsound₂ := read_sound hsound hr₂
  have honly : r₂.pathsOnly = true := by
    unfold Reading.read at hr₂
    split at hr₂
    · next honly => exact (value_sound hsound hr₂).2.1.trans honly
    · obtain rfl := Except.ok.inj hr₂
      rfl
  obtain ⟨-, -, -, -, hpaths⟩ := finish_eq_ok (run_sound hsound₂ hr) hfinish
  rw [hpaths, run_pathsOnly hsound₂ honly hr, List.map_append, List.map_map]
  refine ⟨r₂.seen.map String.ofList, ?_⟩
  simp [Function.comp_def]

end Arguments

end EstreeLint.Command
