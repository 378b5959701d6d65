import EstreeLint.Estree.Registry
import Mathlib.Data.List.Range
import Mathlib.Tactic.Common

/-!
The registry against a naive map.

A redirection does not look through the answers: it moves those that the registry says may be there,
by `carried`. That nothing is missed is an invariant, `Carries`: whatever a number answers for, the
number either comes from it or has received it by an earlier redirection.
-/

namespace EstreeLint.Estree

/-! ### Lists of pairs -/

section Lookup

variable {α : Type*} {l : List (Nat × α)} {k d : Nat}

lemma lookup_filter_ne (h : k ≠ d) : (l.filter (·.1 != d)).lookup k = l.lookup k := by
  induction l with
  | nil => rfl
  | cons p l ih =>
    obtain ⟨j, a⟩ := p
    by_cases hj : j = d
    · have hk : (k == j) = false := by simpa [hj] using h
      simp [hj, List.lookup_cons, ih, hj ▸ hk]
    · rw [List.filter_cons_of_pos (by simpa using hj), List.lookup_cons, List.lookup_cons, ih]

lemma lookup_filter_self : (l.filter (·.1 != d)).lookup d = none := by
  rw [List.lookup_eq_none_iff]
  intro p hp
  have hne : p.1 ≠ d := by simpa using List.of_mem_filter hp
  simpa using hne.symm

lemma lookup_map_value {β : Type*} (f : Nat → α → β) :
    (l.map fun p => (p.1, f p.1 p.2)).lookup k = (l.lookup k).map (f k) := by
  induction l with
  | nil => rfl
  | cons p l ih =>
    rw [List.map_cons, List.lookup_cons, List.lookup_cons, ih]
    cases h : k == p.1 with
    | true =>
      have hk : k = p.1 := by simpa using h
      simp [hk]
    | false => rfl

end Lookup

namespace Registry

variable {r : Registry} {native : Option Nat} {d s i m n : Nat}

/-! ### One operation -/

@[simp] lemma size_next : (r.next native).2.size = r.size + 1 := by simp [next, size]

@[simp] lemma next_fst : (r.next native).1 = r.size := rfl

@[simp] lemma forwardedTo_next : (r.next native).2.forwardedTo i = r.forwardedTo i := rfl

lemma nativeOf?_of_size_le (h : r.size ≤ i) : r.nativeOf? i = none := by
  rw [nativeOf?, List.getElem?_eq_none h]
  rfl

lemma lt_size_of_nativeOf? (h : r.nativeOf? i = some m) : i < r.size := by
  by_contra hle
  rw [nativeOf?_of_size_le (Nat.le_of_not_lt hle)] at h
  cases h

lemma nativeOf?_next :
    (r.next native).2.nativeOf? i = if i = r.size then native else r.nativeOf? i := by
  have hnatives : (r.next native).2.natives = r.natives ++ [native] := rfl
  rw [nativeOf?, hnatives]
  rcases Nat.lt_trichotomy i r.size with hlt | rfl | hgt
  · rw [if_neg (Nat.ne_of_lt hlt), List.getElem?_append_left hlt, nativeOf?]
  · rw [if_pos rfl, size, List.getElem?_concat_length]
    rfl
  · have hlen : (r.natives ++ [native]).length ≤ i := by
      rw [List.length_append]
      exact hgt
    rw [if_neg (Nat.ne_of_gt hgt), List.getElem?_eq_none hlen,
      nativeOf?_of_size_le (Nat.le_of_lt hgt)]
    rfl

lemma converted_next_some (n : Nat) :
    (r.next (some n)).2.converted =
      if (r.convertedOf? n).isSome then r.converted else (n, r.size) :: r.converted := rfl

/-- The first number taken for a node answers for it. -/
lemma convertedOf?_next :
    (r.next native).2.convertedOf? m =
      if native = some m ∧ r.convertedOf? m = none then some r.size else r.convertedOf? m := by
  cases native with
  | none => rw [if_neg fun h => nomatch h.1]; rfl
  | some n =>
    rw [convertedOf?, converted_next_some]
    cases hn : r.convertedOf? n with
    | some j =>
      have hentry : ¬ (some n = some m ∧ r.convertedOf? m = none) := by
        rintro ⟨h, hnone⟩
        rw [Option.some.inj h, hnone] at hn
        cases hn
      rw [if_neg hentry]
      rfl
    | none =>
      have hnil : ¬ (none : Option Nat).isSome = true := nofun
      rw [if_neg hnil, List.lookup_cons]
      by_cases hm : n = m
      · subst hm
        rw [if_pos ⟨rfl, hn⟩, beq_self_eq_true]
      · have hne : (m == n) = false := by simpa using Ne.symm hm
        rw [if_neg fun h => hm (Option.some.inj h.1), hne]
        rfl

lemma natives_redirect :
    (r.redirect d s).natives =
      (r.nativeOf? d).elim r.natives fun n =>
        if r.natives[s]? == some none then r.natives.set s (some n) else r.natives := by
  cases h : r.nativeOf? d <;> simp only [redirect, h, Option.elim]

@[simp] lemma size_redirect : (r.redirect d s).size = r.size := by
  rw [size, natives_redirect]
  cases r.nativeOf? d with
  | none => rfl
  | some n =>
    simp only [Option.elim]
    split
    · exact List.length_set
    · rfl

lemma getElem?_natives_eq_iff :
    r.natives[i]? = some none ↔ i < r.size ∧ r.nativeOf? i = none := by
  constructor
  · intro h
    obtain ⟨hlt, -⟩ := List.getElem?_eq_some_iff.1 h
    exact ⟨hlt, by rw [nativeOf?, h]; rfl⟩
  · rintro ⟨hlt, h⟩
    rw [nativeOf?, List.getElem?_eq_getElem hlt] at h
    rw [List.getElem?_eq_getElem hlt]
    exact congrArg some h

/-- A redirection gives the number kept a node to come from, if it is there and had none. -/
lemma nativeOf?_redirect :
    (r.redirect d s).nativeOf? i =
      if i = s ∧ s < r.size ∧ r.nativeOf? s = none then r.nativeOf? d else r.nativeOf? i := by
  rw [nativeOf?, natives_redirect]
  cases hd : r.nativeOf? d with
  | none =>
    simp only [Option.elim]
    split
    · rename_i h
      rw [← nativeOf?, h.1, h.2.2]
    · rfl
  | some n =>
    simp only [Option.elim, beq_iff_eq, getElem?_natives_eq_iff]
    by_cases hs : s < r.size ∧ r.nativeOf? s = none
    · rw [if_pos hs, List.getElem?_set]
      by_cases hi : s = i
      · subst hi
        have hlt : s < r.natives.length := hs.1
        rw [if_pos rfl, if_pos hlt, if_pos ⟨rfl, hs⟩]
        rfl
      · rw [if_neg hi, if_neg fun h => hi h.1.symm, nativeOf?]
    · rw [if_neg hs, if_neg fun h => hs h.2, nativeOf?]

/-- A redirection takes from the number dropped all that it has received. -/
lemma forwardedTo_redirect :
    (r.redirect d s).forwardedTo i =
      if i = s then (if s = d then [] else r.forwardedTo s) ++ r.carried d
      else if i = d then [] else r.forwardedTo i := by
  have hothers : ∀ j, ((r.forwarded.filter (·.1 != d)).lookup j).getD [] =
      if j = d then [] else r.forwardedTo j := by
    intro j
    split
    · rename_i hj
      rw [hj, lookup_filter_self]
      rfl
    · rename_i hj
      rw [lookup_filter_ne hj, forwardedTo]
  rw [forwardedTo, redirect]
  simp only
  split
  · rename_i hempty
    have hnil : r.carried d = [] := List.isEmpty_iff.1 hempty
    rw [hothers, hnil, List.append_nil]
    by_cases hi : i = s
    · rw [if_pos hi, hi]
    · rw [if_neg hi]
  · rw [List.lookup_cons]
    by_cases hi : i = s
    · rw [if_pos hi, hi, beq_self_eq_true]
      simp only [Option.getD_some, hothers]
    · have hne : (i == s) = false := by simpa using hi
      rw [if_neg hi, hne]
      simp only [lookup_filter_ne hi, hothers]

/-! ### What a number answers for -/

/-- Whatever has an answer is among what the answer comes from or has received. -/
def Carries (r : Registry) : Prop := ∀ m i, r.convertedOf? m = some i → m ∈ r.carried i

lemma mem_carried : m ∈ r.carried i ↔ m ∈ r.forwardedTo i ∨ r.nativeOf? i = some m := by
  simp [carried, Option.mem_toList]

/-- A redirection that moves what it carries moves every answer there is. -/
lemma convertedOf?_redirect (h : r.Carries) :
    (r.redirect d s).convertedOf? m =
      if r.convertedOf? m = some d then some s else r.convertedOf? m := by
  have hmap : (r.redirect d s).converted = r.converted.map fun p =>
      (p.1, if p.2 == d && (r.carried d).contains p.1 then s else p.2) := by
    simp only [redirect]
    refine List.map_congr_left fun p _ => ?_
    split <;> rfl
  have hlookup := lookup_map_value (l := r.converted) (k := m)
    fun n i => if i == d && (r.carried d).contains n then s else i
  rw [convertedOf?, hmap, hlookup, ← convertedOf?]
  cases hm : r.convertedOf? m with
  | none => rfl
  | some i =>
    by_cases hi : i = d
    · have hin : (r.carried d).contains m = true := by simpa using h m d (hi ▸ hm)
      simp only [hi, hin, Option.map_some, beq_self_eq_true, Bool.and_self, if_true]
    · simp [hi]

lemma carries_empty : Carries {} := nofun

lemma Carries.next (h : r.Carries) : (r.next native).2.Carries := by
  intro m i hm
  rw [mem_carried, nativeOf?_next]
  rw [convertedOf?_next] at hm
  split at hm
  · rename_i hnew
    right
    rw [← Option.some.inj hm, if_pos rfl, hnew.1]
  · rcases mem_carried.1 (h m i hm) with hfwd | hnative
    · exact .inl hfwd
    · have hlt := lt_size_of_nativeOf? hnative
      right
      rwa [if_neg (Nat.ne_of_lt hlt)]

lemma Carries.redirect (h : r.Carries) : (r.redirect d s).Carries := by
  intro m i hm
  rw [convertedOf?_redirect h] at hm
  rw [mem_carried, forwardedTo_redirect, nativeOf?_redirect]
  split at hm
  · -- the answer has moved, and so has what carries it
    rename_i hd
    left
    rw [if_pos (Option.some.inj hm).symm]
    exact List.mem_append_right _ (h m d hd)
  · rename_i hd
    have hid : i ≠ d := fun hi => hd (hi ▸ hm)
    rcases mem_carried.1 (h m i hm) with hfwd | hnative
    · left
      rw [if_neg hid]
      split
      · rename_i his
        rw [if_neg (his ▸ hid)]
        exact List.mem_append_left _ (his ▸ hfwd)
      · exact hfwd
    · right
      rw [if_neg]
      · exact hnative
      · rintro ⟨his, -, hnone⟩
        rw [← his, hnative] at hnone
        cases hnone

end Registry

/-! ### Any sequence of operations -/

/-- What is done to a registry. -/
inductive Registry.Op where
  | next (native : Option Nat)
  | redirect (dropped kept : Nat)
deriving DecidableEq, Repr

/-- The operation hands out a number. -/
def Registry.Op.isNext : Registry.Op → Bool
  | .next _ => true
  | .redirect .. => false

/-- A registry in which a redirection rewrites every answer there is. A node that is none has no
answer. -/
structure Answers where
  count : Nat
  native : Nat → Option Nat
  answer : Option Nat → Option Nat

namespace Answers

/-- No numbers yet. -/
def empty : Answers := ⟨0, fun _ => none, fun _ => none⟩

/-- Takes the next number. It answers for the node it comes from if nothing does yet. -/
def next (a : Answers) (native : Option Nat) : Answers where
  count := a.count + 1
  native i := if i = a.count then native else a.native i
  answer m := if m.isSome ∧ m = native ∧ a.answer m = none then some a.count else a.answer m

/-- Rewrites one answer to another. The number kept comes from where the number dropped does if it
is there and comes from nowhere. -/
def redirect (a : Answers) (dropped kept : Nat) : Answers where
  count := a.count
  native i :=
    if i = kept ∧ kept < a.count ∧ a.native kept = none then a.native dropped else a.native i
  answer m := if a.answer m = some dropped then some kept else a.answer m

def step (a : Answers) : Registry.Op → Answers
  | .next native => a.next native
  | .redirect dropped kept => a.redirect dropped kept

def run (ops : List Registry.Op) : Answers := ops.foldl step empty

end Answers

namespace Registry

/-- One operation, with the numbers handed out so far. -/
def step : Registry × List Nat → Op → Registry × List Nat
  | (r, handed), .next native => ((r.next native).2, handed ++ [(r.next native).1])
  | (r, handed), .redirect dropped kept => (r.redirect dropped kept, handed)

/-- A registry after operations, and the numbers handed out on the way. -/
def run (ops : List Op) : Registry × List Nat := ops.foldl step ({}, [])

lemma run_concat (ops : List Op) (op : Op) : run (ops ++ [op]) = step (run ops) op := by
  simp [run]

lemma size_run (ops : List Op) : (run ops).1.size = ops.countP Op.isNext := by
  induction ops using List.reverseRecOn with
  | nil => rfl
  | append_singleton ops op ih =>
    rw [run_concat, List.countP_append, ← ih]
    cases op <;> simp [step, Op.isNext]

/-- A registry stands for the naive one. -/
structure Stands (p : Registry × List Nat) (a : Answers) : Prop where
  size : p.1.size = a.count
  handed : p.2 = List.range p.1.size
  native : ∀ i, p.1.nativeOf? i = a.native i
  answer : ∀ m : Option Nat, m.bind p.1.convertedOf? = a.answer m
  carries : p.1.Carries

lemma stands_empty : Stands ({}, []) .empty where
  size := rfl
  handed := rfl
  native _ := rfl
  answer m := by cases m <;> rfl
  carries := carries_empty

lemma Stands.step {p : Registry × List Nat} {a : Answers} (h : Stands p a) (op : Op) :
    Stands (step p op) (a.step op) := by
  obtain ⟨r, handed⟩ := p
  obtain ⟨hsize, hhanded, hnative, hanswer, hcarries⟩ := h
  simp only at hsize hhanded hnative hanswer hcarries
  cases op with
  | next native =>
    refine ⟨?_, ?_, fun i => ?_, fun m => ?_, hcarries.next⟩
    · simp [Registry.step, Answers.step, Answers.next, hsize]
    · simp [Registry.step, hhanded, List.range_succ]
    · simp only [Registry.step, Answers.step, Answers.next, nativeOf?_next, hsize, hnative]
    · cases m with
      | none => simpa [Answers.step, Answers.next] using hanswer none
      | some m =>
        have hm : r.convertedOf? m = a.answer (some m) := hanswer (some m)
        simp only [Registry.step, Answers.step, Answers.next, Option.bind_some, convertedOf?_next,
          hm, hsize, Option.isSome_some, true_and, eq_comm]
  | redirect d s =>
    refine ⟨?_, ?_, fun i => ?_, fun m => ?_, hcarries.redirect⟩
    · simp [Registry.step, Answers.step, Answers.redirect, hsize]
    · simp [Registry.step, hhanded]
    · simp only [Registry.step, Answers.step, Answers.redirect, nativeOf?_redirect, hsize, hnative]
    · cases m with
      | none =>
        have hnone : a.answer none = none := (hanswer none).symm
        simp [Answers.step, Answers.redirect, hnone]
      | some m =>
        have hm : r.convertedOf? m = a.answer (some m) := hanswer (some m)
        simp only [Registry.step, Answers.step, Answers.redirect, Option.bind_some,
          convertedOf?_redirect hcarries, hm]

lemma stands_run (ops : List Op) : Stands (run ops) (Answers.run ops) := by
  suffices h : ∀ p a, Stands p a → Stands (ops.foldl step p) (ops.foldl Answers.step a) from
    h _ _ stands_empty
  induction ops with
  | nil => exact fun _ _ h => h
  | cons op ops ih => exact fun p a h => ih _ _ (h.step op)

/-- **A registry is the naive map, whatever is done to it.** After any operations it gives every
node the answer that rewriting all answers gives; the numbers handed out count up from zero, as many
as its size; and a redirection changes no more of where numbers come from than to give the number
kept, if it came from nowhere, what the number dropped comes from. -/
theorem run_refines_answers (ops : List Op) :
    (∀ m : Option Nat, m.bind (run ops).1.convertedOf? = (Answers.run ops).answer m) ∧
    (∀ i, (run ops).1.nativeOf? i = (Answers.run ops).native i) ∧
    (run ops).2 = List.range (run ops).1.size ∧
    (run ops).1.size = ops.countP Op.isNext ∧
    ∀ d s i, (run (ops ++ [.redirect d s])).1.nativeOf? i ≠ (run ops).1.nativeOf? i →
      i = s ∧ (run ops).1.nativeOf? s = none ∧
        (run (ops ++ [.redirect d s])).1.nativeOf? s = (run ops).1.nativeOf? d := by
  have h := stands_run ops
  refine ⟨h.answer, h.native, h.handed, size_run ops, fun d s i hi => ?_⟩
  simp only [run_concat, step, nativeOf?_redirect] at hi ⊢
  split at hi
  · rename_i hfill
    exact ⟨hfill.1, hfill.2.2, if_pos ⟨trivial, hfill.2⟩⟩
  · exact absurd rfl hi

end Registry

end EstreeLint.Estree
