import Mathlib.Data.List.Forall2

/-!
Computations that may fail: what it means for a row of them to succeed.
-/

namespace EstreeLint

variable {ε α β : Type}

lemma bind_eq_ok_iff {x : Except ε α} {f : α → Except ε β} {b : β} :
    x >>= f = .ok b ↔ ∃ a, x = .ok a ∧ f a = .ok b := by
  cases x with
  | error e =>
    constructor
    · intro h
      cases h
    · rintro ⟨a, h, -⟩
      cases h
  | ok a =>
    constructor
    · exact fun h => ⟨a, rfl, h⟩
    · rintro ⟨a', ha, h⟩
      rwa [Except.ok.inj ha]

lemma map_eq_ok_iff {x : Except ε α} {f : α → β} {b : β} :
    f <$> x = .ok b ↔ ∃ a, x = .ok a ∧ f a = b := by
  cases x with
  | error e =>
    constructor
    · intro h
      cases h
    · rintro ⟨a, h, -⟩
      cases h
  | ok a =>
    constructor
    · exact fun h => ⟨a, rfl, Except.ok.inj h⟩
    · rintro ⟨a', ha, h⟩
      rw [Except.ok.inj ha, ← h]
      rfl

lemma map_eq_error_iff {x : Except ε α} {f : α → β} {e : ε} :
    f <$> x = .error e ↔ x = .error e := by
  cases x with
  | error e' =>
    constructor
    all_goals exact fun h => congrArg Except.error (Except.error.inj h)
  | ok a =>
    constructor
    · intro h
      cases h
    · intro h
      cases h

lemma mapM_eq_ok_iff {f : α → Except ε β} {as : List α} {bs : List β} :
    as.mapM f = .ok bs ↔ List.Forall₂ (fun a b => f a = .ok b) as bs := by
  induction as generalizing bs with
  | nil =>
    rw [List.mapM_nil, List.forall₂_nil_left_iff]
    exact ⟨fun h => (Except.ok.inj h).symm, fun h => congrArg _ h.symm⟩
  | cons a as ih =>
    rw [List.mapM_cons, bind_eq_ok_iff, List.forall₂_cons_left_iff]
    constructor
    · rintro ⟨b, hb, h⟩
      obtain ⟨cs, hcs, h⟩ := bind_eq_ok_iff.1 h
      exact ⟨b, cs, hb, ih.1 hcs, (Except.ok.inj h).symm⟩
    · rintro ⟨b, cs, hb, hcs, rfl⟩
      exact ⟨b, hb, bind_eq_ok_iff.2 ⟨cs, ih.2 hcs, rfl⟩⟩

lemma mem_of_mapM_eq_ok {f : α → Except ε β} {as : List α} {bs : List β} (h : as.mapM f = .ok bs)
    {b : β} : b ∈ bs ↔ ∃ a ∈ as, f a = .ok b := by
  rw [mapM_eq_ok_iff] at h
  induction h with
  | nil => simp
  | cons hab _ ih => simp [ih, hab, eq_comm]

/-- A row of computations succeeds if each of them does. -/
lemma exists_mapM_eq_ok_iff {f : α → Except ε β} {as : List α} :
    (∃ bs, as.mapM f = .ok bs) ↔ ∀ a ∈ as, ∃ b, f a = .ok b := by
  simp only [mapM_eq_ok_iff]
  induction as with
  | nil => simp
  | cons a as ih =>
    simp only [List.forall₂_cons_left_iff, List.forall_mem_cons, ← ih]
    constructor
    · rintro ⟨_, b, bs, hb, hbs, -⟩
      exact ⟨⟨b, hb⟩, bs, hbs⟩
    · rintro ⟨⟨b, hb⟩, bs, hbs⟩
      exact ⟨_, b, bs, hb, hbs, rfl⟩

/-- A row of computations fails with the first of them that fails. -/
lemma mapM_eq_error_iff {f : α → Except ε β} {as : List α} {e : ε} :
    as.mapM f = .error e ↔ ∃ done a rest, as = done ++ a :: rest ∧
      (∀ b ∈ done, ∃ c, f b = .ok c) ∧ f a = .error e := by
  induction as with
  | nil => simp [pure, Except.pure]
  | cons a as ih =>
    rw [List.mapM_cons]
    cases ha : f a with
    | error e' =>
      constructor
      · intro h
        obtain rfl := Except.error.inj (h : Except.error e' = Except.error e)
        exact ⟨[], a, as, rfl, by simp, ha⟩
      · rintro ⟨done, a', rest, heq, hdone, he⟩
        cases done with
        | nil =>
          obtain ⟨rfl, -⟩ := List.cons.inj heq
          rw [ha] at he
          rw [Except.error.inj he]
          rfl
        | cons d done =>
          obtain ⟨rfl, -⟩ := List.cons.inj heq
          obtain ⟨c, hc⟩ := hdone a List.mem_cons_self
          cases ha.symm.trans hc
    | ok b =>
      constructor
      · intro h
        cases hbs : as.mapM f with
        | ok bs =>
          rw [hbs] at h
          cases h
        | error e' =>
          rw [hbs] at h
          obtain rfl := Except.error.inj (h : Except.error e' = Except.error e)
          obtain ⟨done, a', rest, rfl, hdone, he⟩ := ih.1 hbs
          exact ⟨a :: done, a', rest, rfl, List.forall_mem_cons.2 ⟨⟨b, ha⟩, hdone⟩, he⟩
      · rintro ⟨done, a', rest, heq, hdone, he⟩
        cases done with
        | nil =>
          obtain ⟨rfl, -⟩ := List.cons.inj heq
          cases ha.symm.trans he
        | cons d done =>
          obtain ⟨rfl, rfl⟩ := List.cons.inj heq
          have hrest := ih.2 ⟨done, a', rest, rfl, fun b hb => hdone b (.tail _ hb), he⟩
          rw [hrest]
          rfl

end EstreeLint
