import EstreeLint.Proofs.Law.Chains
import EstreeLint.Proofs.Law.Endings

/-!
How often a node of the tree is numbered.

A rule converts every part of its node once, so what it adds to the registry for one number is
bounded by how often the number occurs among the parts that it reads. `Adds` says of a step which
parts these are; the rules are put together from their steps by instances, and a rule that reads no
part twice adds no more than the tree has.

On the way the registry is `Sound`: what answers for a comma is made of a comma over it.
-/

namespace EstreeLint.Estree

variable {file : SourceFile} {x : Nat} {n m l : Node} {r s t : Registry}

/-! ### How often a number occurs -/

/-- How often the number occurs in the trees. -/
def loads (x : Nat) (ns : List Node) : Nat := ((Tree.forestNodes ns).map Tree.index).count x

/-- How often the number occurs in the tree. -/
def load (x : Nat) (n : Node) : Nat := (n.nodes.map Tree.index).count x

@[simp] lemma loads_nil : loads x [] = 0 := rfl

lemma loads_cons (ns : List Node) : loads x (n :: ns) = load x n + loads x ns := by
  simp [loads, load, Tree.forestNodes]

@[simp] lemma loads_singleton : loads x [n] = load x n := by simp [loads_cons]

lemma load_eq : load x n = (if n.index = x then 1 else 0) + loads x n.children := by
  rw [load, Tree.nodes_eq, List.map_cons, List.count_cons, Nat.add_comm]
  simp [loads, Tree.descendants]

lemma loads_filter_add (q : Node → Bool) (ns : List Node) :
    loads x (ns.filter q) + loads x (ns.filter (!q ·)) = loads x ns := by
  induction ns with
  | nil => rfl
  | cons n ns ih =>
    rw [List.filter_cons, List.filter_cons, loads_cons, ← ih]
    cases q n
    · simp only [Bool.false_eq_true, if_false, Bool.not_false, if_true, loads_cons]
      omega
    · simp only [Bool.false_eq_true, if_false, Bool.not_true, if_true, loads_cons]
      omega

lemma loads_filter_le (q : Node → Bool) (ns : List Node) : loads x (ns.filter q) ≤ loads x ns := by
  have := loads_filter_add (x := x) q ns
  omega

lemma load_le_loads {ns : List Node} (h : n ∈ ns) : load x n ≤ loads x ns := by
  induction ns with
  | nil => cases h
  | cons m ns ih =>
    rw [loads_cons]
    rcases List.mem_cons.1 h with rfl | h
    · exact Nat.le_add_right ..
    · exact Nat.le_trans (ih h) (Nat.le_add_left ..)

/-- How often the number occurs in the parts with the roles, each as often as it is named. -/
def cost (x : Nat) (n : Node) : List Role → Nat
  | [] => 0
  | r :: rs => loads x (n.partsOf r) + cost x n rs

lemma cost_append (rs rs' : List Role) : cost x n (rs ++ rs') = cost x n rs + cost x n rs' := by
  induction rs with
  | nil => simp [cost]
  | cons r rs ih => simp [cost, ih, Nat.add_assoc]

/-- The roles that one of two steps reads, where only one of them is taken. -/
def either : List Role → List Role → List Role
  | [], rs' => rs'
  | r :: rs, rs' => r :: either rs (rs'.erase r)

lemma cost_le_erase (r : Role) (rs : List Role) :
    cost x n rs ≤ loads x (n.partsOf r) + cost x n (rs.erase r) := by
  induction rs with
  | nil => exact Nat.zero_le _
  | cons r' rs ih =>
    rw [List.erase_cons]
    split
    · next h =>
      rw [beq_iff_eq.1 h]
      exact Nat.le_refl _
    · simp only [cost]
      omega

lemma cost_le_either_left (rs rs' : List Role) : cost x n rs ≤ cost x n (either rs rs') := by
  induction rs generalizing rs' with
  | nil => exact Nat.zero_le _
  | cons r rs ih => exact Nat.add_le_add_left (ih _) _

lemma cost_le_either_right (rs rs' : List Role) : cost x n rs' ≤ cost x n (either rs rs') := by
  induction rs generalizing rs' with
  | nil => exact Nat.le_refl _
  | cons r rs ih => exact Nat.le_trans (cost_le_erase r rs') (Nat.add_le_add_left (ih _) _)

/-- Parts with different roles are different parts. -/
lemma cost_le_loads {rs : List Role} (h : rs.Nodup) (ns : List Node)
    (hns : ∀ r ∈ rs, ns.filter (·.role == r) = n.partsOf r) : cost x n rs ≤ loads x ns := by
  induction rs generalizing ns with
  | nil => exact Nat.zero_le _
  | cons r rs ih =>
    obtain ⟨hr, hrs⟩ := List.nodup_cons.1 h
    rw [cost, ← hns r List.mem_cons_self, ← loads_filter_add (·.role == r) ns]
    refine Nat.add_le_add_left (ih hrs _ fun r' hr' => ?_) _
    rw [← hns r' (List.mem_cons_of_mem _ hr'), List.filter_filter]
    refine List.filter_congr fun c _ => ?_
    have hne : r' ≠ r := fun he => hr (he ▸ hr')
    by_cases hc : c.role = r'
    · simp [hc, hne]
    · simp [hc]

lemma cost_le {rs : List Role} (h : rs.Nodup) : cost x n rs ≤ loads x n.children :=
  cost_le_loads h n.children fun _ _ => rfl

lemma cost_le_filter {rs : List Role} (h : rs.Nodup) (q : Role → Bool) (hq : ∀ r ∈ rs, q r = true) :
    cost x n rs ≤ loads x (n.children.filter (q ·.role)) := by
  refine cost_le_loads h _ fun r hr => ?_
  rw [List.filter_filter]
  refine List.filter_congr fun c _ => ?_
  by_cases hc : c.role = r
  · simp [hc, hq r hr]
  · simp [hc]

/-! ### The registry on the way -/

open EstreeLint.Estree.Convert (IsComma)

/-- Down from the first comma, along left parts, the node is reached. -/
inductive LeftSpine : Node → Node → Prop
  | refl (n : Node) : LeftSpine n n
  | step {n m l : Node} (h : LeftSpine n m) (hm : IsComma m) (hl : m.part? .left = some l) :
    LeftSpine n l

lemma LeftSpine.up (hn : IsComma n) (hm : n.part? .left = some m) (h : LeftSpine m l) :
    LeftSpine n l := by
  induction h with
  | refl => exact .step (.refl n) hn hm
  | step _ hp hl ih => exact .step ih hp hl

/-- What answers for a comma is made of a comma over it. -/
structure Registry.Sound (file : SourceFile) (r : Registry) : Prop where
  kept : r.Kept file
  commas : ∀ l ∈ file.root.nodes, IsComma l → ∀ i, r.convertedOf? l.index = some i →
    ∃ n ∈ file.root.nodes, IsComma n ∧ r.nativeOf? i = some n.index ∧ LeftSpine n l

namespace Registry

variable {d i k k' : Nat}

lemma sound_empty : Sound file {} := ⟨kept_empty, fun _ _ _ _ => nofun⟩

lemma Sound.next (h : r.Sound file) (native : Option Nat) : (r.next native).2.Sound file where
  kept := h.kept.next native
  commas l hl hcomma i hi := by
    rw [convertedOf?_next] at hi
    split at hi
    · next hnew =>
      obtain rfl := Option.some.inj hi
      exact ⟨l, hl, hcomma, by rw [nativeOf?_next, if_pos rfl, hnew.1], .refl l⟩
    · obtain ⟨n, hn, hc, hnative, hspine⟩ := h.commas l hl hcomma i hi
      have hbefore : r.Before file (r.next native).2 := .next native
      exact ⟨n, hn, hc, (hbefore.nativeOf? (lt_size_of_nativeOf? hnative)).trans hnative, hspine⟩

/-- How often a number has been given to the syntax node. -/
def timesOf (r : Registry) (x : Nat) : Nat := r.natives.count (some x)

/-- Numbers that come from the syntax node are among those that were given to it. -/
lemma length_le_timesOf {is : List Nat} (hnodup : is.Nodup)
    (h : ∀ i ∈ is, r.nativeOf? i = some x) : is.length ≤ r.timesOf x := by
  have hnatives : r.natives = (List.range r.natives.length).map r.nativeOf? := by
    refine List.ext_getElem (by simp) fun i hi _ => ?_
    simp [nativeOf?, hi]
  rw [timesOf, hnatives, List.count, List.countP_map, List.countP_eq_length_filter]
  refine (hnodup.subperm fun i hi => List.mem_filter.2 ⟨?_, ?_⟩).length_le
  · exact List.mem_range.2 (lt_size_of_nativeOf? (h i hi))
  · simp [h i hi]

/-- From a sound registry to another, with the syntax node numbered at most so many times more. -/
structure Grew (file : SourceFile) (x k : Nat) (r s : Registry) : Prop where
  before : r.Before file s
  sound : s.Sound file
  times : s.timesOf x ≤ r.timesOf x + k

namespace Grew

lemma refl (h : r.Sound file) : Grew file x 0 r r := ⟨.refl r, h, Nat.le_refl _⟩

lemma trans (h : Grew file x k r s) (h' : Grew file x k' s t) : Grew file x (k + k') r t where
  before := h.before.trans h'.before
  sound := h'.sound
  times := by
    have := h.times
    have := h'.times
    omega

lemma mono (h : Grew file x k r s) (hk : k ≤ k') : Grew file x k' r s :=
  ⟨h.before, h.sound, Nat.le_trans h.times (Nat.add_le_add_left hk _)⟩

lemma next (h : r.Sound file) (native : Option Nat) :
    Grew file x (if native = some x then 1 else 0) r (r.next native).2 where
  before := .next native
  sound := h.next native
  times := by
    rw [timesOf, timesOf, show (r.next native).2.natives = r.natives ++ [native] from rfl,
      List.count_append, List.count_singleton]
    simp

/-- A redirection within what is made of a comma, or up to the comma over it. -/
lemma redirect (h : r.Sound file) (hd : ∀ y, r.nativeOf? d = some y → Mobile file y)
    (hk : (r.nativeOf? k).isSome = true)
    (hover : ∀ m ∈ file.root.nodes, IsComma m → r.nativeOf? d = some m.index →
      ∃ n ∈ file.root.nodes, IsComma n ∧ r.nativeOf? k = some n.index ∧
        (n = m ∨ n.part? .left = some m)) : Grew file x 0 r (r.redirect d k) := by
  obtain ⟨hbefore, hkept⟩ := redirect_kept h.kept hd hk
  have hnatives : (r.redirect d k).natives = r.natives := by
    obtain ⟨later, hlater⟩ := hbefore.natives
    rw [natives_redirect] at hlater ⊢
    cases r.nativeOf? d with
    | none => rfl
    | some n =>
      rw [Option.elim_some, if_neg]
      rw [beq_iff_eq, getElem?_natives_eq_iff]
      rintro ⟨-, hnone⟩
      rw [hnone] at hk
      cases hk
  refine ⟨hbefore, ⟨hkept, fun l hl hcomma i hi => ?_⟩, by rw [timesOf, timesOf, hnatives]; rfl⟩
  have hsame (j : Nat) : (r.redirect d k).nativeOf? j = r.nativeOf? j := by
    rw [nativeOf?, nativeOf?, hnatives]
  rw [convertedOf?_redirect h.kept.carries] at hi
  split at hi
  · next hd =>
    obtain rfl := Option.some.inj hi
    obtain ⟨m, hm, hmc, hnative, hspine⟩ := h.commas l hl hcomma d hd
    obtain ⟨n, hn, hnc, hnative', hnm⟩ := hover m hm hmc hnative
    refine ⟨n, hn, hnc, (hsame _).trans hnative', ?_⟩
    rcases hnm with rfl | hleft
    · exact hspine
    · exact hspine.up hnc hleft
  · obtain ⟨n, hn, hnc, hnative, hspine⟩ := h.commas l hl hcomma i hi
    exact ⟨n, hn, hnc, (hsame _).trans hnative, hspine⟩

end Grew

end Registry

/-! ### What lies below -/

/-- How often the number may be taken for a node. The decorators of a parameter are converted with
the parameters, and the rest of an import clause with the import. -/
def due (x : Nat) (n : Node) : Nat :=
  (if n.index = x then 1 else 0) +
    if n.isForm .parameter then loads x (n.children.filter (·.role != .modifier))
    else if n.isForm .importClause then loads x (n.partsOf .name)
    else loads x n.children

lemma due_le_load : due x n ≤ load x n := by
  rw [due, load_eq]
  refine Nat.add_le_add_left ?_ _
  split
  · exact loads_filter_le ..
  · split
    · exact loads_filter_le ..
    · exact Nat.le_refl _

/-- An expression stands before every comma, and below only a comma comes to a sequence, unless a
node hands on what it holds. -/
structure Joining (env : Env) : Prop where
  joins : ∀ n ∈ env.file.root.nodes, IsComma n → Grammar.Joins n
  comma {place : Place} {m : Node} {r s : Registry} {a : EsNode} :
    (∀ g ∈ Convert.holderForms, m.kind ≠ .form g) → env.recur place m r = .ok (a, s) →
    a.type = .sequenceExpression → IsComma m ∧ s.nativeOf? a.id = some m.index

/-- The number is not that of a token. -/
structure Countable (file : SourceFile) (x : Nat) : Prop where
  parsed : Parsed file
  form : ∀ n ∈ file.root.nodes, n.index = x → ∃ f, n.kind = .form f

/-- What lies below takes the number no more than `cap` times for each time that it occurs. -/
class Counted (env : Env) (x cap : Nat) : Prop where
  asked : Asked env (chainLaw env.file)
  joining : Joining env
  countable : Countable env.file x
  one_le : 1 ≤ cap
  grew {place : Place} {p m : Node} {r s : Registry} {a : EsNode} : p ∈ env.file.root.nodes →
    m ∈ p.children → place.parent = some p.kind → r.Sound env.file →
    env.recur place m r = .ok (a, s) → Registry.Grew env.file x (cap * due x m) r s

/-- The step does not take the number. -/
class Silent {α : Type} (env : Env) (x : Nat) (p : Convert α) : Prop where
  grew {r s : Registry} {a : α} : r.Sound env.file → p env r = .ok (a, s) →
    Registry.Grew env.file x 0 r s

/-- The step takes the number `own` times for the node itself, and else no more than is due to its
parts with the roles. -/
class Adds {α : Type} (env : Env) (x cap : Nat) (n : Node) (p : Convert α) (own : outParam Nat)
    (roles : outParam (List Role)) : Prop where
  grew {r s : Registry} {a : α} : n ∈ env.file.root.nodes → r.Sound env.file →
    p env r = .ok (a, s) →
      Registry.Grew env.file x ((if n.index = x then own else 0) + cap * cost x n roles) r s

/-- What is done with a part of `n` takes the number no more than is due to the part. -/
class Bounded {α : Type} (env : Env) (x cap : Nat) (n m : Node) (p : Convert α) : Prop where
  grew {r s : Registry} {a : α} : n ∈ env.file.root.nodes → m ∈ n.children → r.Sound env.file →
    p env r = .ok (a, s) → Registry.Grew env.file x (cap * load x m) r s

variable {α β : Type} {env : Env} {cap : Nat} {own own' : Nat} {roles roles' : List Role}

namespace Silent

lemma look {p : Convert α} (h : ∀ {r s a}, p env r = .ok (a, s) → s = r) : Silent env x p where
  grew hr hrun := by
    obtain rfl := h hrun
    exact .refl hr

instance (a : α) : Silent env x (pure a) := look fun h => by cases h; rfl

instance (e : ConvertError) : Silent env x (throw e : Convert α) := ⟨fun _ => nofun⟩

instance {p : Convert α} {f : α → Convert β} [hp : Silent env x p] [hf : ∀ a, Silent env x (f a)] :
    Silent env x (p >>= f) where
  grew hr hrun := by
    obtain ⟨a, t, ha, hb⟩ := run_bind_eq_ok hrun
    have hgrew := hp.grew hr ha
    exact hgrew.trans ((hf a).grew hgrew.sound hb)

lemma ite {c : Prop} [Decidable c] {p q : Convert α} (hp : Silent env x p)
    (hq : Silent env x q) : Silent env x (if c then p else q) := by
  split
  · exact hp
  · exact hq

instance {c : Prop} [Decidable c] {p q : Convert α} [hp : Silent env x p] [hq : Silent env x q] :
    Silent env x (if c then p else q) := hp.ite hq

instance {p : Convert α} {g : α → β} [Silent env x p] : Silent env x (g <$> p) := by
  rw [map_eq_pure_bind]
  infer_instance

instance {f : Env → Convert α} [h : Silent env x (f env)] : Silent env x (read >>= f) := ⟨h.grew⟩

end Silent

namespace Adds

lemma mono {p : Convert α} (h : Adds env x cap n p own roles) (ho : own ≤ own')
    (hc : cost x n roles ≤ cost x n roles') : Adds env x cap n p own' roles' where
  grew hn hr hrun := by
    refine (h.grew hn hr hrun).mono (Nat.add_le_add ?_ (Nat.mul_le_mul_left _ hc))
    split
    · exact ho
    · exact Nat.le_refl _

lemma bind {p : Convert α} {f : α → Convert β} (hp : Adds env x cap n p own roles)
    (hf : ∀ a, Adds env x cap n (f a) own' roles') :
    Adds env x cap n (p >>= f) (own + own') (roles ++ roles') where
  grew hn hr hrun := by
    obtain ⟨a, t, ha, hb⟩ := run_bind_eq_ok hrun
    have hgrew := hp.grew hn hr ha
    refine (hgrew.trans ((hf a).grew hn hgrew.sound hb)).mono (Nat.le_of_eq ?_)
    rw [cost_append, Nat.mul_add]
    split <;> omega

/-- Two steps of which it is said what each takes. -/
lemma seq (own own' : Nat) (roles roles' : List Role) {p : Convert α} {f : α → Convert β}
    (hp : Adds env x cap n p own roles) (hf : ∀ a, Adds env x cap n (f a) own' roles') :
    Adds env x cap n (p >>= f) (own + own') (roles ++ roles') := hp.bind hf

instance {p : Convert α} {f : α → Convert β} [hp : Adds env x cap n p own roles]
    [hf : ∀ a, Adds env x cap n (f a) own' roles'] :
    Adds env x cap n (p >>= f) (own + own') (roles ++ roles') := hp.bind hf

lemma ite {c : Prop} [Decidable c] {p q : Convert α} (hp : c → Adds env x cap n p own roles)
    (hq : ¬ c → Adds env x cap n q own roles) :
    Adds env x cap n (if c then p else q) own roles := by
  split
  · exact hp ‹_›
  · exact hq ‹_›

instance {c : Prop} [Decidable c] {p q : Convert α} [hp : Adds env x cap n p own roles]
    [hq : Adds env x cap n q own' roles'] :
    Adds env x cap n (if c then p else q) (max own own') (either roles roles') :=
  ite (fun _ => hp.mono (Nat.le_max_left ..) (cost_le_either_left ..))
    fun _ => hq.mono (Nat.le_max_right ..) (cost_le_either_right ..)

lemma silent {p : Convert α} (hp : Silent env x p) : Adds env x cap n p own roles :=
  ⟨fun _ hr hrun => (hp.grew hr hrun).mono (Nat.zero_le _)⟩

instance (priority := low) {p : Convert α} [hp : Silent env x p] : Adds env x cap n p 0 [] :=
  silent hp

lemma after {p : Convert α} {f : α → Convert β} (hp : Silent env x p)
    (hf : ∀ a, Adds env x cap n (f a) own roles) : Adds env x cap n (p >>= f) own roles := by
  have hbind := seq 0 own [] roles (silent hp) hf
  rwa [Nat.zero_add] at hbind

instance {p : Convert α} {g : α → β} [hp : Adds env x cap n p own roles] :
    Adds env x cap n (g <$> p) own roles := by
  rw [map_eq_pure_bind]
  exact (seq own 0 roles [] hp fun _ => inferInstance).mono (Nat.le_refl _)
    (by rw [List.append_nil])

instance {f : Env → Convert α} [h : Adds env x cap n (f env) own roles] :
    Adds env x cap n (read >>= f) own roles := ⟨h.grew⟩

end Adds

namespace Bounded

lemma of_adds [hcounted : Counted env x cap] {p : Convert α}
    (h : Adds env x cap m p own roles) (ho : own ≤ 1) (hr : roles.Nodup) :
    Bounded env x cap n m p where
  grew hn hm hr' hrun := by
    refine (h.grew (Tree.mem_nodes_trans hn (Tree.mem_nodes_of_mem hm)) hr' hrun).mono ?_
    rw [load_eq, Nat.mul_add]
    refine Nat.add_le_add ?_ (Nat.mul_le_mul_left _ (cost_le hr))
    have := hcounted.one_le
    split <;> omega

instance {p : Convert α} {f : α → Convert β} [hp : Bounded env x cap n m p]
    [hf : ∀ a, Silent env x (f a)] : Bounded env x cap n m (p >>= f) where
  grew hn hm hr hrun := by
    obtain ⟨a, t, ha, hb⟩ := run_bind_eq_ok hrun
    have hgrew := hp.grew hn hm hr ha
    exact (hgrew.trans ((hf a).grew hgrew.sound hb)).mono (Nat.le_refl _)

instance {p : Convert α} {f : α → Convert β} [hp : Silent env x p]
    [hf : ∀ a, Bounded env x cap n m (f a)] : Bounded env x cap n m (p >>= f) where
  grew hn hm hr hrun := by
    obtain ⟨a, t, ha, hb⟩ := run_bind_eq_ok hrun
    have hgrew := hp.grew hr ha
    exact (hgrew.trans ((hf a).grew hn hm hgrew.sound hb)).mono (Nat.le_of_eq (Nat.zero_add _))

instance {c : Prop} [Decidable c] {p q : Convert α} [hp : Bounded env x cap n m p]
    [hq : Bounded env x cap n m q] : Bounded env x cap n m (if c then p else q) := by
  split
  · exact hp
  · exact hq

instance {p : Convert α} {g : α → β} [Bounded env x cap n m p] :
    Bounded env x cap n m (g <$> p) := by
  rw [map_eq_pure_bind]
  infer_instance

instance (priority := low) {p : Convert α} [hp : Silent env x p] : Bounded env x cap n m p :=
  ⟨fun _ _ hr hrun => (hp.grew hr hrun).mono (Nat.zero_le _)⟩

/-- What is done with several parts. -/
lemma mapM {f : Node → Convert α} (ms : List Node) (h : ∀ m ∈ ms, Bounded env x cap n m (f m))
    (hms : ∀ m ∈ ms, m ∈ n.children) {r s : Registry} {as : List α}
    (hn : n ∈ env.file.root.nodes) (hr : r.Sound env.file) (hrun : ms.mapM f env r = .ok (as, s)) :
    Registry.Grew env.file x (cap * loads x ms) r s := by
  induction ms generalizing r as with
  | nil =>
    cases hrun
    exact .refl hr
  | cons m ms ih =>
    rw [List.mapM_cons] at hrun
    obtain ⟨a, t, ha, hrun⟩ := run_bind_eq_ok hrun
    obtain ⟨as', t', has, hrun⟩ := run_bind_eq_ok hrun
    cases hrun
    have hgrew := (h m (by simp)).grew hn (hms m (by simp)) hr ha
    have hrest := ih (fun m hm => h m (by simp [hm])) (fun m hm => hms m (by simp [hm])) hgrew.sound
      has
    refine (hgrew.trans hrest).mono ?_
    rw [loads_cons, Nat.mul_add]

end Bounded

end EstreeLint.Estree
