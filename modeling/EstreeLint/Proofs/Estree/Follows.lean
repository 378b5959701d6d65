import EstreeLint.Proofs.Estree.Needs

/-!
A conversion step follows its needs: it gives a result exactly if they are met, whatever the
registry holds, and all nodes in the result then stand where they say.

The needs of two steps in a row are those of both, so a rule is put together from the steps it
is made of.
-/

namespace EstreeLint.Estree

/-- Everything that is needed is there and can be converted. -/
def Met (ok : Site → Prop) (l : Needs) : Prop := ∀ o ∈ l, ∃ s, o = some s ∧ ok s

/-- The step gives a result that satisfies `post` if `l` is met, and an error otherwise. -/
structure Follows {α : Type} (env : Env) (ok : Site → Prop) (m : Convert α) (l : Needs)
    (post : α → Prop) : Prop where
  gives : Met ok l → ∀ r, ∃ a r', m env r = .ok (a, r') ∧ post a
  fails : ¬ Met ok l → ∀ r, ∃ e, m env r = .error e

/-- The nodes below convert exactly if they are `ok`. -/
def Recurs (env : Env) (ok : Site → Prop) : Prop :=
  ∀ place n k, place.parent = some k →
    Follows env ok (fun env => env.recur place n) [some ⟨k, n⟩] (Settled env.file)

/-- A part that may be there is a part that must be there, if it is there. -/
lemma Needs.may_eq (n : Node) (r : Role) :
    may n r = if (n.part? r).isSome then must n r else [] := by
  unfold may must each
  cases n.part? r <;> rfl

section Met

variable {ok : Site → Prop}

@[simp] lemma met_nil : Met ok [] := by simp [Met]

@[simp] lemma met_append (l l' : Needs) : Met ok (l ++ l') ↔ Met ok l ∧ Met ok l' := by
  simp [Met, or_imp, forall_and]

@[simp] lemma met_none (l : Needs) : ¬ Met ok (none :: l) := by simp [Met]

@[simp] lemma met_some (s : Site) (l : Needs) : Met ok (some s :: l) ↔ ok s ∧ Met ok l := by
  simp [Met]

lemma met_flatMap {α : Type} (xs : List α) (f : α → Needs) :
    Met ok (xs.flatMap f) ↔ ∀ x ∈ xs, Met ok (f x) := by
  induction xs with
  | nil => simp
  | cons x xs ih => simp [ih]

@[simp] lemma met_each (n : Node) (ms : List Node) :
    Met ok (Needs.each n ms) ↔ ∀ m ∈ ms, ok ⟨n.kind, m⟩ := by
  simp [Met, Needs.each]

end Met

namespace Follows

variable {α β : Type} {env : Env} {ok : Site → Prop} {m : Convert α} {l l' : Needs}
  {post : α → Prop}

/-- A result satisfies the postcondition. -/
lemma result (h : Follows env ok m l post) {r r' : Registry} {a : α}
    (hm : m env r = .ok (a, r')) : post a := by
  by_cases hl : Met ok l
  · obtain ⟨b, s, hb, hpost⟩ := h.gives hl r
    rw [hm] at hb
    cases hb
    exact hpost
  · obtain ⟨e, he⟩ := h.fails hl r
    rw [hm] at he
    cases he

lemma congr (h : Follows env ok m l post) (hl : Met ok l ↔ Met ok l') :
    Follows env ok m l' post :=
  ⟨fun hm => h.gives (hl.2 hm), fun hm => h.fails fun hm' => hm (hl.1 hm')⟩

lemma weaken {post' : α → Prop} (h : Follows env ok m l post) (hp : ∀ a, post a → post' a) :
    Follows env ok m l post' := by
  refine ⟨fun hm r => ?_, h.fails⟩
  obtain ⟨a, r', ha, hpost⟩ := h.gives hm r
  exact ⟨a, r', ha, hp a hpost⟩

lemma pure {a : α} (h : post a) : Follows env ok (pure a) [] post :=
  ⟨fun _ r => ⟨a, r, rfl, h⟩, fun h => absurd met_nil h⟩

lemma throw (e : ConvertError) : Follows env ok (throw e : Convert α) [none] post :=
  ⟨fun h => absurd h (met_none []), fun _ _ => ⟨e, rfl⟩⟩

/-- **Two steps in a row need what both need.** -/
lemma bind {f : α → Convert β} {post' : β → Prop} (h : Follows env ok m l post)
    (hf : ∀ a, post a → Follows env ok (f a) l' post') :
    Follows env ok (m >>= f) (l ++ l') post' := by
  have hok {r r' : Registry} {a : α} (ha : m env r = .ok (a, r')) :
      (m >>= f) env r = f a env r' := by
    change (m env r >>= fun x => f x.1 env x.2) = _
    rw [ha]
    rfl
  constructor
  · intro hm r
    rw [met_append] at hm
    obtain ⟨a, r', ha, hpost⟩ := h.gives hm.1 r
    rw [hok ha]
    exact (hf a hpost).gives hm.2 r'
  · intro hm r
    by_cases hl : Met ok l
    · obtain ⟨a, r', ha, hpost⟩ := h.gives hl r
      rw [hok ha]
      exact (hf a hpost).fails (fun hl' => hm ((met_append l l').2 ⟨hl, hl'⟩)) r'
    · obtain ⟨e, he⟩ := h.fails hl r
      refine ⟨e, ?_⟩
      change (m env r >>= fun x => f x.1 env x.2) = _
      rw [he]
      rfl

/-- A last step that needs nothing. -/
lemma andThen {f : α → Convert β} {post' : β → Prop} (h : Follows env ok m l post)
    (hf : ∀ a, post a → Follows env ok (f a) [] post') : Follows env ok (m >>= f) l post' := by
  simpa using h.bind hf

/-- A first step that needs nothing. -/
lemma after {f : α → Convert β} {post' : β → Prop} (h : Follows env ok m [] post)
    (hf : ∀ a, post a → Follows env ok (f a) l' post') : Follows env ok (m >>= f) l' post' := by
  simpa using h.bind hf

/-- What comes after an error is not reached. -/
lemma abort {f : α → Convert β} {post' : β → Prop}
    (h : Follows env ok m [none] fun _ => False) : Follows env ok (m >>= f) [none] post' :=
  h.andThen fun _ h => h.elim

lemma map {g : α → β} {post' : β → Prop} (h : Follows env ok m l post)
    (hg : ∀ a, post a → post' (g a)) : Follows env ok (g <$> m) l post' := by
  rw [map_eq_pure_bind]
  exact h.andThen fun a ha => .pure (hg a ha)

lemma ofRead {f : Env → Convert α} (h : Follows env ok (f env) l post) :
    Follows env ok (read >>= f) l post := ⟨h.gives, h.fails⟩

lemma ite {c : Prop} [Decidable c] {m' : Convert α} (h : c → Follows env ok m l post)
    (h' : ¬ c → Follows env ok m' l' post) :
    Follows env ok (if c then m else m') (if c then l else l') post := by
  split
  · exact h ‹_›
  · exact h' ‹_›

/-- A choice between steps that need the same. -/
lemma branch {c : Prop} [Decidable c] {m' : Convert α} (h : Follows env ok m l post)
    (h' : Follows env ok m' l post) : Follows env ok (if c then m else m') l post := by
  split
  · exact h
  · exact h'

/-- A step that goes on to `jp` on each of its branches. -/
lemma via (jp : β → Convert α) (h : ∀ b, Follows env ok (jp b) l post)
    (hm : (∀ b, Follows env ok (jp b) l post) → Follows env ok m l post) :
    Follows env ok m l post := hm h

lemma mapM {f : α → Convert β} {needs : α → Needs} {post' : β → Prop} (xs : List α)
    (h : ∀ x ∈ xs, Follows env ok (f x) (needs x) post') :
    Follows env ok (xs.mapM f) (xs.flatMap needs)
      (fun ys => ys.length = xs.length ∧ ∀ y ∈ ys, post' y) := by
  induction xs with
  | nil => exact .pure (by simp)
  | cons x xs ih =>
    rw [List.mapM_cons, List.flatMap_cons]
    refine (h x (by simp)).bind fun y hy => ?_
    refine (ih fun z hz => h z (by simp [hz])).andThen fun ys hys => .pure ?_
    simpa [hy] using hys

lemma mapM? {f : α → Convert β} {needs : α → Needs} {post' : β → Prop} (o : Option α)
    (h : ∀ x ∈ o, Follows env ok (f x) (needs x) post') :
    Follows env ok (o.mapM f) (o.elim [] needs)
      (fun y => y.isSome = o.isSome ∧ ∀ b ∈ y, post' b) := by
  cases o with
  | none => exact .pure (by simp)
  | some x =>
    refine (h x rfl).map fun b hb => ?_
    simpa using hb

end Follows

/-- A step that always gives a result. -/
abbrev Harmless {α : Type} (env : Env) (ok : Site → Prop) (m : Convert α) : Prop :=
  Follows env ok m [] fun _ => True

namespace Convert

variable {env : Env} {ok : Site → Prop}

lemma tokensOf_harmless (n : Node) : Harmless env ok (tokensOf n) := .ofRead (.pure trivial)

lemma sourceOf_harmless (r : Span) : Harmless env ok (sourceOf r) := .ofRead (.pure trivial)

lemma tokenAt_harmless (pos : Nat) : Harmless env ok (tokenAt pos) := .ofRead (.pure trivial)

lemma findToken_harmless (pos : Nat) (k : TokenKind) : Harmless env ok (findToken pos k) :=
  .ofRead (.pure trivial)

lemma isTarget_harmless : Harmless env ok isTarget := .ofRead (.pure trivial)

lemma modify_harmless (f : Registry → Registry) : Harmless env ok (modify f) :=
  ⟨fun _ r => ⟨_, f r, rfl, trivial⟩, fun h => absurd met_nil h⟩

/-! ### Making nodes -/

lemma make_follows {native : Option Node} {r : Span} {type : NodeType} {parts : List Part}
    (h : PartsSettled env.file parts) :
    Follows env ok (make native r type parts) [] (Settled env.file) := by
  refine ⟨fun _ s => ⟨_, _, rfl, ?_⟩, fun h => absurd met_nil h⟩
  exact settled_make _ r h rfl rfl

lemma finish_follows {n : Node} {type : NodeType} {parts : List Part}
    (h : PartsSettled env.file parts) :
    Follows env ok (finish n type parts) [] (Settled env.file) :=
  (tokensOf_harmless n).after fun _ _ => make_follows h

lemma restart_follows {n : EsNode} (start : Nat) (h : Settled env.file n) :
    Follows env ok (restart n start) [] (Settled env.file) := by
  refine .ofRead (.pure (settled_settle ?_))
  obtain ⟨l, cs⟩ := n
  exact fun c => h.child

lemma resettle_follows {n : EsNode} (h : ∀ c ∈ n.children, Settled env.file c) :
    Follows env ok (resettle n) [] (Settled env.file) := .ofRead (.pure (settled_settle h))

/-! ### Parts -/

variable (hr : Recurs env ok) (n : Node) (r : Role)

include hr

lemma convertPart_follows (part : Node) (isTarget : Bool) :
    Follows env ok (convertPart n part isTarget) [some ⟨n.kind, part⟩] (Settled env.file) := by
  have h := hr (env.place.below n isTarget) part n.kind rfl
  exact ⟨h.gives, h.fails⟩

omit hr in
lemma require_follows :
    Follows env ok (require n r) (Needs.fact (n.part? r).isSome) (fun m => n.part? r = some m) := by
  unfold require
  cases h : n.part? r with
  | some m => exact .pure rfl
  | none => exact .throw _

omit hr in
/-- What is needed of a part that is read without being converted. -/
lemma within_follows {α : Type} {f : Node → Convert α} {post : α → Prop} {need : Node → Needs}
    (h : ∀ m, Follows env ok (f m) (need m) post) :
    Follows env ok (require n r >>= f) (Needs.within n r need) post := by
  unfold require Needs.within
  cases n.part? r with
  | some m => exact h m
  | none => exact .abort (.throw _)

lemma child_follows : Follows env ok (child n r) (Needs.must n r) (Settled env.file) := by
  unfold child require Needs.must
  cases n.part? r with
  | some m => exact convertPart_follows hr n m false
  | none => exact .abort (.throw _)

lemma target_follows : Follows env ok (target n r) (Needs.must n r) (Settled env.file) := by
  unfold target require Needs.must
  cases n.part? r with
  | some m => exact convertPart_follows hr n m true
  | none => exact .abort (.throw _)

omit hr in
lemma optional_follows {α : Type} {f : Node → Convert α} {post : α → Prop}
    (h : ∀ m, Follows env ok (f m) [some ⟨n.kind, m⟩] post) :
    Follows env ok ((n.part? r).mapM f) (Needs.may n r) (fun o => ∀ a ∈ o, post a) := by
  refine ((Follows.mapM? (n.part? r) fun m _ => h m).congr ?_).weaken fun _ h => h.2
  unfold Needs.may
  cases n.part? r <;> simp

lemma child?_follows :
    Follows env ok (child? n r) (Needs.may n r) (fun o => ∀ c ∈ o, Settled env.file c) :=
  optional_follows n r fun m => convertPart_follows hr n m false

lemma convertAll_follows (ms : List Node) (isTarget : Bool) :
    Follows env ok (ms.mapM (convertPart n · isTarget)) (Needs.each n ms)
      (fun cs => cs.length = ms.length ∧ ∀ c ∈ cs, Settled env.file c) := by
  refine (Follows.mapM ms fun m _ => convertPart_follows hr n m isTarget).congr ?_
  simp [met_flatMap]

lemma children_follows :
    Follows env ok (children n r) (Needs.all n r) (fun cs => ∀ c ∈ cs, Settled env.file c) :=
  (convertAll_follows hr n (n.partsOf r) false).weaken fun _ h => h.2

lemma childrenOrHoles_follows (isTarget : Bool) :
    Follows env ok (childrenOrHoles n .element isTarget) (Needs.filled n)
      (fun cs => ∀ o ∈ cs, ∀ c ∈ o, Settled env.file c) := by
  have place (m : Node) : Follows env ok
      (if m.isForm .omittedExpression then return none else some <$> convertPart n m isTarget)
      (if m.isForm .omittedExpression then [] else [some ⟨n.kind, m⟩])
      (fun o => ∀ c ∈ o, Settled env.file c) :=
    .ite (fun _ => .pure (by simp)) fun _ =>
      (convertPart_follows hr n m isTarget).map fun c hc => by simpa using hc
  refine ((Follows.mapM (n.partsOf .element) fun m _ => place m).congr ?_).weaken fun _ h => h.2
  simp only [met_flatMap, Needs.filled, met_each, List.mem_filter, and_imp]
  refine forall₂_congr fun m _ => ?_
  by_cases h : m.isForm .omittedExpression = true <;> simp [h]

lemma decorators_follows :
    Follows env ok (decorators n) (Needs.decorators n)
      (fun cs => ∀ c ∈ cs, Settled env.file c) :=
  (convertAll_follows hr n _ false).weaken fun _ h => h.2

end Convert

end EstreeLint.Estree
