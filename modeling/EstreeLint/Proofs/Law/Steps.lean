import EstreeLint.Proofs.Law.Basic

/-!
Steps of a conversion under a law.

`Gives env L Γ p` says what a run of `p` comes to where `Γ` is known: the registry goes on, and the
result is good. The rules are put together from their steps by instances, with what is known growing
from step to step.
-/

namespace EstreeLint

namespace Scanner

/-- A scan goes on from where the scanner is. -/
lemma le_scanFrom (σ : Scanner) (p : Nat) (cs : List Char) (flags : TokenFlags) :
    p ≤ (σ.scanFrom p cs flags).start.pos ∧ p ≤ (σ.scanFrom p cs flags).cursor.pos := by
  rw [scanFrom.eq_def]
  match cs with
  | [] => exact ⟨Nat.le_refl _, Nat.le_add_right ..⟩
  | c :: cs =>
    dsimp only
    generalize (if p = 0 then Lexeme.shebang? (c :: cs) else none).getD (.read σ.variant c cs) = l
    split
    · obtain ⟨hstart, hcursor⟩ := le_scanFrom σ (p + Text.bytes ((c :: cs).take l.length))
        (cs.drop (l.length - 1)) (flags ∪ l.flags)
      exact ⟨Nat.le_trans (Nat.le_add_right ..) hstart, Nat.le_trans (Nat.le_add_right ..) hcursor⟩
    · exact ⟨Nat.le_refl _, Nat.le_add_right ..⟩
termination_by cs.length
decreasing_by
  simp only [List.length_drop, List.length_cons]
  omega

lemma le_scan {σ : Scanner} {k : Nat} (h : k ≤ σ.cursor.pos) :
    k ≤ σ.scan.tokenStart ∧ k ≤ σ.scan.cursor.pos := by
  obtain ⟨hstart, hcursor⟩ :=
    le_scanFrom { σ with fullStart := σ.cursor.pos } σ.cursor.pos σ.cursor.rest {}
  exact ⟨Nat.le_trans h hstart, Nat.le_trans h hcursor⟩

end Scanner

namespace Estree

variable {α β : Type} [Carrier α] [Carrier β] {file : SourceFile}

/-- From a registry a step has come to a result and another registry. -/
structure Moves (L : Law file) (r s : Registry) (a : α) : Prop where
  before : r.Before file s
  kept : s.Kept file
  good : Good L s a

class Gives (env : Env) (L : Law env.file) (Γ : Facts env.file) (p : Convert α) : Prop where
  moves {r s : Registry} {a : α} : Γ.holds r → r.Kept env.file → p env r = .ok (a, s) →
    Moves L r s a

/-- What lies below is converted under the law. Names and patterns give bindings. -/
class Asked (env : Env) (L : Law env.file) : Prop where
  sited : SitedIn env.file env.file.root
  moves {place : Place} {n : Node} {r s : Registry} {a : EsNode} : L.asks place.isTarget n →
    r.Kept env.file → env.recur place n r = .ok (a, s) → Moves L r s a
  binds {place : Place} {n : Node} {r s : Registry} {a : EsNode} : Grammar.Binds n →
    place.inQuery = false → env.recur place n r = .ok (a, s) → Convert.isBindingType a.type = true

variable {env : Env} {L : Law env.file} {Γ Δ : Facts env.file}

namespace Gives

/-! ### Control -/

/-- A step that leaves the registry as it is and does not look below. -/
lemma look {p : Convert α} (h : ∀ {r s a}, Γ.holds r → p env r = .ok (a, s) → s = r ∧ Good L r a) :
    Gives env L Γ p where
  moves hΓ hkept hrun := by
    obtain ⟨rfl, hgood⟩ := h hΓ hrun
    exact ⟨.refl _, hkept, hgood⟩

instance [h : Entails Γ (.good L a)] : Gives env L Γ (pure a : Convert α) where
  moves hΓ hkept hrun := by
    cases hrun
    exact ⟨.refl _, hkept, h.of hΓ⟩

instance (e : ConvertError) : Gives env L Γ (throw e : Convert α) := ⟨fun _ _ h => nomatch h⟩

/-- **Two steps in a row**: the second knows what the first has come to. -/
lemma bindOf {Δ : α → Facts env.file} {p : Convert α} {f : α → Convert β}
    (hp : Gives env L Γ p) (hΔ : ∀ {r s a}, p env r = .ok (a, s) → (Δ a).holds s)
    (hf : ∀ a, Gives env L ((Δ a).both ((Facts.good L a).both Γ)) (f a)) :
    Gives env L Γ (p >>= f) where
  moves {r s b} hΓ hkept hrun := by
    obtain ⟨a, t, ha, hb⟩ := run_bind_eq_ok hrun
    obtain ⟨hbefore, hkept', hgood⟩ := hp.moves hΓ hkept ha
    obtain ⟨hbefore', hkept'', hgood'⟩ :=
      (hf a).moves ⟨hΔ ha, hgood, Γ.later hbefore hΓ⟩ hkept' hb
    exact ⟨hbefore.trans hbefore', hkept'', hgood'⟩

lemma known {p : Convert α} (h : Gives env L Δ p) (hΓ : ∀ r, Γ.holds r → Δ.holds r) :
    Gives env L Γ p := ⟨fun h' => h.moves (hΓ _ h')⟩

lemma bind {p : Convert α} {f : α → Convert β} (hp : Gives env L Γ p)
    (hf : ∀ a, Gives env L ((Facts.good L a).both Γ) (f a)) : Gives env L Γ (p >>= f) :=
  hp.bindOf (Δ := fun _ => .none) (fun _ => trivial) fun a => (hf a).known fun _ h => h.2

instance {p : Convert α} {f : α → Convert β} [hp : Gives env L Γ p]
    [hf : ∀ a, Gives env L ((Facts.good L a).both Γ) (f a)] : Gives env L Γ (p >>= f) :=
  hp.bind hf

/-- A step that looks at the file or at its place. -/
lemma ofRead {f : Env → Convert α} (hf : Gives env L Γ (f env)) : Gives env L Γ (read >>= f) where
  moves hΓ hkept hrun := hf.moves hΓ hkept hrun

lemma ite {c : Prop} [Decidable c] {p q : Convert α} (hp : c → Gives env L Γ p)
    (hq : ¬ c → Gives env L Γ q) : Gives env L Γ (if c then p else q) := by
  split
  · exact hp ‹_›
  · exact hq ‹_›

instance {c : Prop} [Decidable c] {p q : Convert α} [hp : Gives env L Γ p]
    [hq : Gives env L Γ q] : Gives env L Γ (if c then p else q) :=
  ite (fun _ => hp) fun _ => hq

/-- What is known at the start may be used throughout. -/
lemma given {q : Prop} {p : Convert α} (hq : q) (h : Gives env L ((Facts.fact q).both Γ) p) :
    Gives env L Γ p := h.known fun _ hΓ => ⟨hq, hΓ⟩

/-- A fact that is known may be used outside of the run. -/
lemma from_fact {q : Prop} {p : Convert α} (hq : Entails Γ (.fact q)) (h : q → Gives env L Γ p) :
    Gives env L Γ p := ⟨fun hΓ => (h (hq.of hΓ)).moves hΓ⟩

instance {p : Convert α} {g : α → β} [hp : Gives env L Γ p]
    [hg : ∀ a, Entails ((Facts.good L a).both Γ) (.good L (g a))] :
    Gives env L Γ (g <$> p) := by
  rw [map_eq_pure_bind]
  exact hp.bind fun a => inferInstance

instance {p : Convert β} [Gives env L Γ p] : Gives env L Γ (some <$> p) := by
  rw [map_eq_pure_bind]
  refine Gives.bind inferInstance fun a => ⟨fun hΓ hkept hrun => ?_⟩
  cases hrun
  exact ⟨.refl _, hkept, fun b hb => Option.some.inj hb ▸ hΓ.1⟩

lemma mapM {γ : Type} {f : γ → Convert β} (xs : List γ) (h : ∀ x ∈ xs, Gives env L Γ (f x)) :
    Gives env L Γ (xs.mapM f) := by
  induction xs with
  | nil => exact .look fun _ h => by cases h; exact ⟨rfl, by simp [Good]⟩
  | cons x xs ih =>
    rw [List.mapM_cons]
    refine (h x (by simp)).bind fun y => ?_
    refine Gives.bind ((ih fun z hz => h z (by simp [hz])).known fun _ hΓ => hΓ.2) fun ys => ?_
    refine .look fun hΓ h => ?_
    cases h
    exact ⟨rfl, List.forall_mem_cons.2 ⟨hΓ.2.1, hΓ.1⟩⟩

lemma mapM? {γ : Type} {f : γ → Convert β} (o : Option γ) (h : ∀ x ∈ o, Gives env L Γ (f x)) :
    Gives env L Γ (o.mapM f) := by
  cases o with
  | none => exact .look fun _ h => by cases h; exact ⟨rfl, nofun⟩
  | some x =>
    have hx := h x rfl
    exact inferInstanceAs (Gives env L Γ (some <$> f x))

lemma foldlM {γ : Type} {f : β → γ → Convert β} (xs : List γ)
    (h : ∀ b, ∀ x ∈ xs, Gives env L ((Facts.good L b).both Γ) (f b x)) (b : β) :
    Gives env L ((Facts.good L b).both Γ) (xs.foldlM f b) := by
  induction xs generalizing b with
  | nil => exact inferInstanceAs (Gives env L _ (pure b))
  | cons x xs ih =>
    rw [List.foldlM_cons]
    refine (h b x (by simp)).bind fun b' => ?_
    exact (ih (fun b y hy => h b y (by simp [hy])) b').known fun _ hΓ => ⟨hΓ.1, hΓ.2.2⟩

end Gives

/-! ### Good values -/

section Values

variable {a : α} {b : β} {as as' : List α} {x : α × β}

instance [h : Entails Γ (.good L a)] : Entails Γ (.good L (some a)) :=
  ⟨fun hΓ _ hb => Option.some.inj hb ▸ h.of hΓ⟩

instance : Entails Γ (.good L (none : Option α)) := ⟨fun _ => nofun⟩

instance : Entails Γ (.good L ([] : List α)) := ⟨fun _ => by simp [Facts.good, Good]⟩

instance [h : Entails Γ (.good L a)] [h' : Entails Γ (.good L as)] :
    Entails Γ (.good L (a :: as)) := ⟨fun hΓ => List.forall_mem_cons.2 ⟨h.of hΓ, h'.of hΓ⟩⟩

instance [h : Entails Γ (.good L as)] [h' : Entails Γ (.good L as')] :
    Entails Γ (.good L (as ++ as')) :=
  ⟨fun hΓ => List.forall_mem_append.2 ⟨h.of hΓ, h'.of hΓ⟩⟩

instance {ass : List (List α)} [h : Entails Γ (.good L ass)] :
    Entails Γ (.good L ass.flatten) := ⟨fun hΓ a ha => by
  obtain ⟨as, has, ha⟩ := List.mem_flatten.1 ha
  exact h.of hΓ as has a ha⟩

instance [h : Entails Γ (.good L a)] [h' : Entails Γ (.good L b)] :
    Entails Γ (.good L (a, b)) := ⟨fun hΓ => ⟨h.of hΓ, h'.of hΓ⟩⟩

instance [h : Entails Γ (.good L x)] : Entails Γ (.good L x.1) := ⟨fun hΓ => (h.of hΓ).1⟩

instance [h : Entails Γ (.good L x)] : Entails Γ (.good L x.2) := ⟨fun hΓ => (h.of hΓ).2⟩

instance : Entails ((Facts.good L (a, b)).both Γ) (.good L a) := ⟨fun hΓ => hΓ.1.1⟩

instance : Entails ((Facts.good L (a, b)).both Γ) (.good L b) := ⟨fun hΓ => hΓ.1.2⟩

instance : Entails ((Facts.good L (some a)).both Γ) (.good L a) := ⟨fun hΓ => hΓ.1 a rfl⟩

instance : Entails Γ (.good L ()) := ⟨fun _ => trivial⟩

instance (s : String) : Entails Γ (.good L s) := ⟨fun _ => trivial⟩

instance (s : Option String) : Entails Γ (.good L s) := ⟨fun _ _ _ => trivial⟩

instance (c : Bool) : Entails Γ (.good L c) := ⟨fun _ => trivial⟩

instance {xs : List (α × β)} [h : Entails Γ (.good L xs)] :
    Entails Γ (.good L (xs.map (·.1))) := ⟨fun hΓ a ha => by
  obtain ⟨x, hx, rfl⟩ := List.mem_map.1 ha
  exact (h.of hΓ x hx).1⟩

instance {xs : List (α × β)} [h : Entails Γ (.good L xs)] :
    Entails Γ (.good L (xs.map (·.2))) := ⟨fun hΓ a ha => by
  obtain ⟨x, hx, rfl⟩ := List.mem_map.1 ha
  exact (h.of hΓ x hx).2⟩

end Values

/-! ### Facts about syntax nodes -/

/-- The parts with the role are read, and not as targets. -/
def Quiet (L : Law file) (n : Node) (r : Role) : Prop := ∀ m ∈ n.partsOf r, L.inner m

/-- The lists of the node other than that of its modifiers stand where they may. -/
def Listed (L : Law file) (n : Node) : Prop :=
  ∀ r l, r ≠ .modifier → n.list? r = some l → L.first ≤ l.pos - 1

def After (L : Law file) (p : Nat) : Prop := L.first ≤ p

/-- What may be made of the syntax node, if there is one. -/
def Makes (L : Law file) (native : Option Node) (t : NodeType) : Prop :=
  L.makes (native.map Tree.index) t

/-- Forms that hold a list of parts with the role, be it empty. -/
def keepsList : NodeKind → Role → Bool
  | .form .methodDeclaration, .parameter | .form .getAccessor, .parameter
  | .form .setAccessor, .parameter | .form .constructor, .parameter
  | .form .classDeclaration, .member | .form .classExpression, .member
  | .form .interfaceDeclaration, .member | .form .enumDeclaration, .member => true
  | _, _ => false

/-- A node that is converted by a rule under which no part is a target. -/
structure Plain (L : Law file) (n : Node) : Prop where
  mem : n ∈ file.root.nodes
  pos : L.first ≤ n.pos
  start : L.first ≤ file.startOf n
  stop : L.first ≤ n.stop
  list : Listed L n
  opening : ∀ r, keepsList n.kind r = true → L.first ≤ Convert.openingOf n r
  part : ∀ m ∈ n.children, L.inner m
  makes : ∀ t, isPlain t = true → L.makes (some n.index) t

section Nodes

variable {n m : Node} {r : Role} {t : NodeType} {p : Nat} {e : EsNode} {w : Span}

instance [h : Entails Γ (.fact (Plain L n))] : Entails Γ (.fact (Quiet L n r)) :=
  ⟨fun hΓ m hm => (h.of hΓ).part m (Below.mem_of_partsOf hm)⟩

instance [h : Entails Γ (.fact (L.inner n))] [hr : IsTrue (isQuiet n.kind r)] :
    Entails Γ (.fact (Quiet L n r)) := ⟨fun hΓ _ hm => L.inner_part (h.of hΓ) hr.eq hm⟩

instance [h : Entails Γ (.fact (Plain L n))] : Entails Γ (.fact (Listed L n)) :=
  ⟨fun hΓ => (h.of hΓ).list⟩

instance [h : Entails Γ (.fact (L.inner n))] : Entails Γ (.fact (Listed L n)) :=
  ⟨fun hΓ => (L.inner_spotted (h.of hΓ)).list⟩

instance [h : Entails Γ (.fact (Plain L n))] [ht : IsTrue (isPlain t)] :
    Entails Γ (.fact (Makes L (some n) t)) := ⟨fun hΓ => (h.of hΓ).makes t ht.eq⟩

instance [ht : IsTrue (isPlain t)] : Entails Γ (.fact (Makes L none t)) :=
  ⟨fun _ => L.synthetic ht.eq⟩

instance [h : Entails Γ (.fact (Plain L n))] : Entails Γ (.fact (After L (env.file.startOf n))) :=
  ⟨fun hΓ => (h.of hΓ).start⟩

instance [h : Entails Γ (.fact (L.inner n))] :
    Entails Γ (.fact (After L (env.file.startOf n))) :=
  ⟨fun hΓ => (L.inner_spotted (h.of hΓ)).start⟩

instance [h : Entails Γ (.fact (Plain L n))] : Entails Γ (.fact (After L n.pos)) :=
  ⟨fun hΓ => (h.of hΓ).pos⟩

instance [h : Entails Γ (.fact (L.inner n))] : Entails Γ (.fact (After L n.pos)) :=
  ⟨fun hΓ => Nat.le_trans (L.inner_spotted (h.of hΓ)).pos (Nat.sub_le ..)⟩

instance [h : Entails Γ (.fact (Plain L n))] : Entails Γ (.fact (After L n.stop)) :=
  ⟨fun hΓ => (h.of hΓ).stop⟩

instance [h : Entails Γ (.fact (L.inner n))] : Entails Γ (.fact (After L n.stop)) :=
  ⟨fun hΓ => (L.inner_spotted (h.of hΓ)).stop⟩

instance [h : Entails Γ (.fact (L.inner n))] [h' : Entails Γ (.fact (Inlined env.file n))]
    [ht : IsTrue (isPlain t)] : Entails Γ (.fact (Makes L (some n) t)) :=
  ⟨fun hΓ => L.inlined (h.of hΓ) (h'.of hΓ) ht.eq⟩

instance [h : Entails Γ (.fact (After L p))] {k : Nat} : Entails Γ (.fact (After L (p + k))) :=
  ⟨fun hΓ => Nat.le_trans (h.of hΓ) (Nat.le_add_right ..)⟩

instance [h : Entails Γ (.good L w)] : Entails Γ (.fact (After L w.start)) := ⟨fun hΓ => h.of hΓ⟩

instance [h : Entails Γ (.good L w)] : Entails Γ (.fact (After L w.stop)) :=
  ⟨fun hΓ => Nat.le_trans (h.of hΓ) w.ordered⟩

instance [h : Entails Γ (.fact (After L p))] : Entails Γ (.good L p) := ⟨fun hΓ => h.of hΓ⟩

instance : Entails ((Facts.good L p).both Γ) (.fact (After L p)) := ⟨fun hΓ => hΓ.1⟩

instance [h : Entails Γ (.good L e)] : Entails Γ (.good L e.range) :=
    ⟨fun hΓ => (h.of hΓ).root.start⟩

instance [h : Entails Γ (.fact (After L p))] {q : Nat} : Entails Γ (.good L (Span.between p q)) :=
  ⟨fun hΓ => h.of hΓ⟩

end Nodes

lemma mem_partsOf_of_part? {n m : Node} {r : Role} (h : n.part? r = some m) : m ∈ n.partsOf r :=
  List.mem_filter.2 ⟨List.mem_of_find?_eq_some h,
    List.find?_some (p := fun c : Node => c.role == r) h⟩

/-! ### Parts of a new node -/

section Parts

variable {ps qs : List Part} {f : Field} {e : EsNode} {o : Option EsNode} {es : List EsNode}
  {os : List (Option EsNode)}

instance : Entails Γ (.parts L []) := ⟨fun _ => by simp [Facts.parts]⟩

instance [h : Entails Γ (.parts L ps)] [h' : Entails Γ (.parts L qs)] :
    Entails Γ (.parts L (ps ++ qs)) :=
  ⟨fun hΓ => (partsHold_append ps qs).2 ⟨h.of hΓ, h'.of hΓ⟩⟩

instance {v : Value} [h : Entails Γ (.parts L ps)] : Entails Γ (.parts L (.value f v :: ps)) :=
  ⟨fun hΓ => (partsHold_value f ps v).2 (h.of hΓ)⟩

instance {b : Bool} [h : Entails Γ (.parts L ps)] : Entails Γ (.parts L (.flag f b :: ps)) :=
  ⟨fun hΓ => (partsHold_flag f ps b).2 (h.of hΓ)⟩

instance {s : String} [h : Entails Γ (.parts L ps)] : Entails Γ (.parts L (.text f s :: ps)) :=
  ⟨fun hΓ => (partsHold_text f ps s).2 (h.of hΓ)⟩

instance {n : Node} [h : Entails Γ (.parts L ps)] :
    Entails Γ (.parts L (Convert.accessibility n :: ps)) :=
  ⟨fun hΓ => (partsHold_text? _ ps _).2 (h.of hΓ)⟩

instance {n : Node} {r : Role} [h : Entails Γ (.parts L ps)] :
    Entails Γ (.parts L (Convert.isComputed n r :: ps)) :=
  ⟨fun hΓ => (partsHold_flag _ ps _).2 (h.of hΓ)⟩

instance {n : Node} [h : Entails Γ (.parts L ps)] :
    Entails Γ (.parts L (Convert.isAsync n :: ps)) :=
  ⟨fun hΓ => (partsHold_flag _ ps _).2 (h.of hΓ)⟩

instance {n : Node} {r : Role} [h : Entails Γ (.parts L ps)] :
    Entails Γ (.parts L (Convert.mappedMark n r f :: ps)) :=
  ⟨fun hΓ => (partsHold_mappedMark f ps n r).2 (h.of hΓ)⟩

lemma partsHold_cons_of {p : Part} {r : Registry} (hp : ∀ c ∈ p.nodes, L.Good r c)
    (h : PartsHold (L.Good r) ps) : PartsHold (L.Good r) (p :: ps) :=
  (partsHold_cons ps p).2 ⟨hp, h⟩

instance [h : Entails Γ (.good L e)] [h' : Entails Γ (.parts L ps)] :
    Entails Γ (.parts L (.one f e :: ps)) :=
  ⟨fun hΓ => partsHold_cons_of
    (fun _ hc => List.mem_singleton.1 hc ▸ Terms.Good.inField (h.of hΓ) f) (h'.of hΓ)⟩

instance [h : Entails Γ (.good L o)] [h' : Entails Γ (.parts L ps)] :
    Entails Γ (.parts L (.one? f o :: ps)) := ⟨fun hΓ => by
  refine partsHold_cons_of (fun c hc => ?_) (h'.of hΓ)
  cases o with
  | none => cases hc
  | some e => exact List.mem_singleton.1 hc ▸ Terms.Good.inField (h.of hΓ e rfl) f⟩

instance [h : Entails Γ (.good L o)] [h' : Entails Γ (.parts L ps)] :
    Entails Γ (.parts L (.extra f o :: ps)) := ⟨fun hΓ => by
  refine partsHold_cons_of (fun c hc => ?_) (h'.of hΓ)
  cases o with
  | none => cases hc
  | some e => exact List.mem_singleton.1 hc ▸ Terms.Good.inField (h.of hΓ e rfl) f⟩

instance [h : Entails Γ (.good L es)] [h' : Entails Γ (.parts L ps)] :
    Entails Γ (.parts L (.list f es :: ps)) := ⟨fun hΓ => by
  refine partsHold_cons_of (fun c hc => ?_) (h'.of hΓ)
  rw [Part.nodes_list, List.mem_map] at hc
  obtain ⟨e, he, rfl⟩ := hc
  exact Terms.Good.inField (h.of hΓ e he) f⟩

instance [h : Entails Γ (.good L os)] [h' : Entails Γ (.parts L ps)] :
    Entails Γ (.parts L (.many f os :: ps)) := ⟨fun hΓ => by
  refine partsHold_cons_of (fun c hc => ?_) (h'.of hΓ)
  obtain ⟨o, ho, hoc⟩ := List.mem_filterMap.1 hc
  obtain ⟨e, rfl, rfl⟩ := Option.map_eq_some_iff.1 hoc
  exact Terms.Good.inField (h.of hΓ _ ho e rfl) f⟩

end Parts

namespace Convert

variable {n m : Node} {r : Role} {t : NodeType} {ps : List Part} {p : Nat} {w : Span} {e : EsNode}

/-! ### Looking -/

instance [h : Entails Γ (.fact (After L (env.file.startOf n)))] :
    Gives env L Γ (tokensOf n) :=
  .look fun hΓ hrun => by cases hrun; exact ⟨rfl, h.of hΓ⟩

instance : Gives env L Γ (sourceOf w) :=
  .look fun _ hrun => by cases hrun; exact ⟨rfl, trivial⟩

instance : Gives env L Γ isTarget :=
  .look fun _ hrun => by cases hrun; exact ⟨rfl, trivial⟩

instance [h : Entails Γ (.fact (After L p))] : Gives env L Γ (tokenAt p) :=
  .look fun hΓ hrun => by
    cases hrun
    exact ⟨rfl, trivial, (Scanner.le_scan (Nat.le_min.2 ⟨h.of hΓ, L.first_le⟩)).1⟩

lemma le_findAmong {k m : Nat} {wanted : TokenKind} {σ : Scanner} {r : Span}
    (hσ : k ≤ σ.cursor.pos) (h : findAmong wanted m σ = some r) : k ≤ r.start := by
  induction m generalizing σ with
  | zero => cases h
  | succ m ih =>
    obtain ⟨hstart, hcursor⟩ := Scanner.le_scan hσ
    rw [findAmong] at h
    split at h
    · cases h
    · split at h
      · exact Option.some.inj h ▸ hstart
      · exact ih hcursor h

instance [h : Entails Γ (.fact (After L p))] {k : TokenKind} : Gives env L Γ (findToken p k) :=
  .look fun hΓ hrun => by
    cases hrun
    refine ⟨rfl, ?_⟩
    cases hfound : findAmong k (Text.bytes env.file.text + 1)
        ((Scanner.ofSource env.file.text env.file.variant true).reset p) with
    | none => exact h.of hΓ
    | some r => exact le_findAmong (Nat.le_min.2 ⟨h.of hΓ, L.first_le⟩) hfound

/-! ### Making nodes -/

lemma widenOver_start {r : Span} {ns : List EsNode} {k : Nat} (hr : k ≤ r.start)
    (hns : ∀ n ∈ ns, k ≤ n.range.start) : k ≤ (Tree.widenOver r ns).start := by
  induction ns generalizing r with
  | nil => exact hr
  | cons n ns ih =>
    exact ih (Nat.le_min.2 ⟨hr, hns n (by simp)⟩) fun m hm => hns m (by simp [hm])

/-- A new node is numbered next, and comes from where it says. -/
lemma make_moves {native : Option Node} {r s : Registry} {a : EsNode}
    (hr : L.first ≤ w.start) (hparts : PartsHold (L.Good r) ps) (hmakes : Makes L native t)
    (hchain : t ≠ .chainExpression)
    (hsequence : t = .sequenceExpression → ∃ n, native = some n ∧ Mobile env.file n.index)
    (hkept : r.Kept env.file) (hrun : make native w t ps env r = .ok (a, s)) :
    Moves L r s a ∧
      a.type = t ∧ s.nativeOf? a.id = native.map Tree.index ∧ a.children = ps.flatMap Part.nodes ∧
      a.range = Tree.widenOver w a.children ∧ r.size ≤ a.id := by
  cases hrun
  have hnative : (r.next (native.map Tree.index)).2.nativeOf? r.size = native.map Tree.index := by
    rw [Registry.nativeOf?_next, if_pos rfl]
  have hbefore := @Registry.Before.next env.file r (native.map Tree.index)
  refine ⟨⟨hbefore, hkept.next _, ?_⟩, rfl, hnative, rfl, rfl, Nat.le_refl _⟩
  have hcs : ∀ c ∈ ps.flatMap Part.nodes, L.Good r c := hparts
  refine Terms.Good.atop ?_ ?_ ?_ hchain (fun ht => ?_) fun c hc => (hcs c hc).later hbefore
  · exact Nat.lt_of_lt_of_eq (Nat.lt_succ_self _) Registry.size_next.symm
  · exact widenOver_start hr fun c hc => (hcs c hc).root.start
  · exact (congrArg (L.makes · t) hnative).mpr hmakes
  · obtain ⟨n, rfl, hn⟩ := hsequence ht
    exact ⟨n.index, hnative, hn⟩

instance {native : Option Node} [hr : Entails Γ (.good L w)] [hp : Entails Γ (.parts L ps)]
    [hm : Entails Γ (.fact (Makes L native t))] [ht : IsTrue (isPlain t)] :
    Gives env L Γ (make native w t ps) where
  moves hΓ hkept hrun := by
    have hplain := ht.eq
    refine (make_moves (hr.of hΓ) (hp.of hΓ) (hm.of hΓ) ?_ ?_ hkept hrun).1
    · rintro rfl
      cases hplain
    · rintro rfl
      cases hplain

instance [Entails Γ (.fact (After L (env.file.startOf n)))]
    [Entails Γ (.parts L ps)] [Entails Γ (.fact (Makes L (some n) t))] [IsTrue (isPlain t)] :
    Gives env L Γ (finish n t ps) := by
  unfold finish
  infer_instance

/-- What a new node is. -/
lemma finish_run {r s : Registry} {a : EsNode} (h : finish n t ps env r = .ok (a, s)) :
    s = (r.next (some n.index)).2 ∧ a.id = r.size ∧ a.type = t ∧
      a.children = ps.flatMap Part.nodes ∧ a.label.slots = ps.filterMap Part.slot? := by
  cases h
  exact ⟨rfl, rfl, rfl, rfl, rfl⟩

lemma finish_type {r s : Registry} {a : EsNode} (h : finish n t ps env r = .ok (a, s)) :
    a.type = t := by
  cases h
  rfl

lemma finish_bind {f : EsNode → Convert β} [Entails Γ (.fact (After L (env.file.startOf n)))]
    [Entails Γ (.parts L ps)] [Entails Γ (.fact (Makes L (some n) t))] [IsTrue (isPlain t)]
    (hf : ∀ a, a.type = t → Gives env L ((Facts.good L a).both Γ) (f a)) :
    Gives env L Γ (finish n t ps >>= f) :=
  Gives.bindOf (Δ := fun a => .fact (a.type = t)) inferInstance finish_type fun a =>
    .from_fact (q := a.type = t) inferInstance fun ht => (hf a ht).known fun _ h => h.2

/-- A node of a type that may be changed, with its start moved. -/
lemma restart_gives [he : Entails Γ (.good L e)] [hp : Entails Γ (.fact (After L p))]
    (ht : isEdited e.type = true) : Gives env L Γ (restart e p) :=
  .look fun {r _ _} hΓ hrun => by
    cases hrun
    have hgood : L.Good r e := he.of hΓ
    have hcs := hgood.children (.inl ht)
    obtain ⟨l, cs⟩ := e
    refine ⟨rfl, hgood.edit ht rfl rfl ?_ hcs⟩
    exact widenOver_start (hp.of hΓ) fun c hc => (hcs c hc).root.start

/-- A number of a syntax node that is taken up no longer answers for it. -/
lemma redirect_gives {d k : Nat} (h : ∀ {r}, Γ.holds r →
      (∀ x, r.nativeOf? d = some x → Mobile env.file x) ∧ (r.nativeOf? k).isSome = true) :
    Gives env L Γ (modify (·.redirect d k) : Convert Unit) where
  moves hΓ hkept hrun := by
    cases hrun
    obtain ⟨hbefore, hkept'⟩ := Registry.redirect_kept hkept (h hΓ).1 (h hΓ).2
    exact ⟨hbefore, hkept', trivial⟩

instance : Gives env L Γ (unexpected n : Convert α) := by
  unfold unexpected
  infer_instance

instance : Gives env L Γ (missing n : Convert α) := by
  unfold missing
  infer_instance

/-! ### Parts -/

lemma convertPart_gives [hasked : Asked env L] {isTarget : Bool} (h : L.asks isTarget m) :
    Gives env L Γ (convertPart n m isTarget) :=
  ⟨fun _ hkept hrun => hasked.moves h hkept hrun⟩

instance [Asked env L] [h : Entails Γ (.fact (L.inner m))] :
    Gives env L Γ (convertPart n m) := .from_fact h fun h => convertPart_gives (L.inner_asks h)

lemma requireOf {f : Node → Convert α} (h : ∀ m, n.part? r = some m → Gives env L Γ (f m)) :
    Gives env L Γ (require n r >>= f) := by
  unfold require
  split
  · next m hm =>
    rw [pure_bind]
    exact h m hm
  · refine ⟨fun _ _ hrun => ?_⟩
    cases hrun

/-- A part that is only converted. -/
lemma child_gives [Asked env L] (h : ∀ m ∈ n.partsOf r, L.asks false m) :
    Gives env L Γ (child n r) :=
  requireOf fun m hm => convertPart_gives (h m (mem_partsOf_of_part? hm))

lemma child?_gives [Asked env L] (h : ∀ m ∈ n.partsOf r, L.asks false m) :
    Gives env L Γ (child? n r) :=
  .mapM? _ fun m hm => convertPart_gives (h m (mem_partsOf_of_part? hm))

/-- A part that must be there. -/
instance {f : Node → Convert α} [h : Entails Γ (.fact (Quiet L n r))]
    [hf : ∀ m, Gives env L ((Facts.fact (L.inner m)).both Γ) (f m)] :
    Gives env L Γ (require n r >>= f) :=
  .from_fact h fun hquiet => requireOf fun m hm =>
    .given (hquiet m (mem_partsOf_of_part? hm)) (hf m)

/-- A part that may be there. -/
instance {f : Node → Convert α} [h : Entails Γ (.fact (Quiet L n r))]
    [hf : ∀ m, Gives env L ((Facts.fact (L.inner m)).both Γ) (f m)] :
    Gives env L Γ ((n.part? r).mapM f) :=
  .from_fact h fun hquiet => .mapM? _ fun m hm =>
    .given (hquiet m (mem_partsOf_of_part? hm)) (hf m)

/-- The parts with a role. -/
instance {f : Node → Convert α} [h : Entails Γ (.fact (Quiet L n r))]
    [hf : ∀ m, Gives env L ((Facts.fact (L.inner m)).both Γ) (f m)] :
    Gives env L Γ ((n.partsOf r).mapM f) :=
  .from_fact h fun hquiet => .mapM _ fun m hm => .given (hquiet m hm) (hf m)

/-- Some of the parts with a role. -/
instance {f : Node → Convert α} {q : Node → Bool} [h : Entails Γ (.fact (Quiet L n r))]
    [hf : ∀ m, Gives env L ((Facts.fact (L.inner m)).both Γ) (f m)] :
    Gives env L Γ (((n.partsOf r).filter q).mapM f) :=
  .from_fact h fun hquiet => .mapM _ fun m hm =>
    .given (hquiet m (List.mem_filter.1 hm).1) (hf m)

section

variable [Asked env L] [Entails Γ (.fact (Quiet L n r))]

instance : Gives env L Γ (child n r) := by unfold child; infer_instance

instance : Gives env L Γ (child? n r) := by unfold child?; infer_instance

instance : Gives env L Γ (children n r) := by unfold children; infer_instance

instance : Gives env L Γ (childrenOrHoles n r false) := by unfold childrenOrHoles; infer_instance

end

instance [Asked env L] [Entails Γ (.fact (Quiet L n .modifier))] :
    Gives env L Γ (decorators n) := by
  unfold decorators
  infer_instance

end Convert

end Estree

end EstreeLint
