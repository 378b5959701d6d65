import EstreeLint.Proofs.Census.Shape
import EstreeLint.Proofs.Estree.Follows

/-!
Steps of a conversion and the numbers of the nodes that they hold.

A step spends the nodes that it is handed on its result: whatever else is held besides, the registry
is accounted for afterwards by the result in their place. So a rule is accounted for by its steps,
as long as it puts every node that it has converted into what it makes.
-/

namespace EstreeLint.Estree

/-- The node and all nodes in it are anchored in the text of the file. -/
abbrev SitedIn (file : SourceFile) (n : Node) : Prop :=
  Grammar.Sited file.text (file.errors = []) n

/-- From a registry accounted for by `held` and a rest, the step gives what accounts for it with
that rest. -/
structure Spends {α : Type} [HasIds α] (env : Env) (held : Multiset Nat) (p : Convert α)
    (post : α → Prop) : Prop where
  gives : ∀ (rest : Multiset Nat) {r r' : Registry} {a : α}, Accounted r (held + rest) →
    p env r = .ok (a, r') → Accounted r' (ids a + rest) ∧ post a

/-- The step only looks. -/
structure Looks {α : Type} (env : Env) (p : Convert α) (post : α → Prop) : Prop where
  gives : ∀ {r r' : Registry} {a : α}, p env r = .ok (a, r') → r' = r ∧ post a

variable {α β : Type} {env : Env}

/-- A step in a row has given a result if the whole has. -/
lemma run_bind_eq_ok {p : Convert α} {f : α → Convert β} {r r' : Registry} {b : β}
    (h : (p >>= f) env r = .ok (b, r')) :
    ∃ a s, p env r = .ok (a, s) ∧ f a env s = .ok (b, r') := by
  change (p env r >>= fun x => f x.1 env x.2) = _ at h
  cases hp : p env r with
  | error e =>
    rw [hp] at h
    cases h
  | ok x =>
    rw [hp] at h
    exact ⟨x.1, x.2, rfl, h⟩

namespace Looks

variable {p : Convert α} {post : α → Prop}

lemma pure {a : α} (h : post a) : Looks env (pure a) post where
  gives hb := by
    cases hb
    exact ⟨rfl, h⟩

lemma bind {f : α → Convert β} {post' : β → Prop} (h : Looks env p post)
    (hf : ∀ a, post a → Looks env (f a) post') : Looks env (p >>= f) post' where
  gives hrun := by
    obtain ⟨a, s, ha, hb⟩ := run_bind_eq_ok hrun
    obtain ⟨rfl, hpost⟩ := h.gives ha
    exact (hf a hpost).gives hb

lemma ofRead {f : Env → Convert α} (h : Looks env (f env) post) : Looks env (read >>= f) post :=
  ⟨h.gives⟩

lemma branch {c : Prop} [Decidable c] {q : Convert α} (h : Looks env p post)
    (h' : Looks env q post) : Looks env (if c then p else q) post := by
  split
  · exact h
  · exact h'

lemma map {g : α → β} {post' : β → Prop} (h : Looks env p post) (hg : ∀ a, post a → post' (g a)) :
    Looks env (g <$> p) post' := by
  rw [map_eq_pure_bind]
  exact h.bind fun a ha => .pure (hg a ha)

end Looks

namespace Spends

variable [HasIds α] [HasIds β] {held held' : Multiset Nat} {p : Convert α} {post : α → Prop}

lemma weaken {post' : α → Prop} (h : Spends env held p post) (hp : ∀ a, post a → post' a) :
    Spends env held p post' where
  gives rest _ _ a hr ha := ⟨(h.gives rest hr ha).1, hp a (h.gives rest hr ha).2⟩

lemma pure {a : α} (ha : ids a = held) (h : post a) : Spends env held (pure a) post where
  gives rest _ _ _ hr hb := by
    cases hb
    exact ⟨ha ▸ hr, h⟩

lemma throw (e : ConvertError) : Spends env held (throw e : Convert α) post :=
  ⟨fun _ _ _ _ _ ha => nomatch ha⟩

/-- **Two steps in a row**, where the first is handed a part of what is held. -/
lemma sub {f : α → Convert β} {post' : β → Prop} {more : Multiset Nat}
    (h : Spends env held' p post) (hheld : held = held' + more)
    (hf : ∀ a, post a → Spends env (ids a + more) (f a) post') :
    Spends env held (p >>= f) post' where
  gives rest r r' b hr hrun := by
    obtain ⟨a, s, ha, hb⟩ := run_bind_eq_ok hrun
    rw [hheld, add_assoc] at hr
    obtain ⟨hs, hpost⟩ := h.gives _ hr ha
    rw [← add_assoc] at hs
    exact (hf a hpost).gives rest hs hb

/-- Two steps in a row, where the first needs nothing. -/
lemma bind {f : α → Convert β} {post' : β → Prop} (h : Spends env 0 p post)
    (hf : ∀ a, post a → Spends env (ids a + held) (f a) post') : Spends env held (p >>= f) post' :=
  h.sub (zero_add held).symm hf

/-- Two steps in a row, where the first is handed all. -/
lemma andThen {f : α → Convert β} {post' : β → Prop} (h : Spends env held p post)
    (hf : ∀ a, post a → Spends env (ids a) (f a) post') : Spends env held (p >>= f) post' :=
  h.sub (add_zero held).symm fun a ha => by simpa using hf a ha

/-- A first step that only looks. -/
lemma after {α : Type} {p : Convert α} {post : α → Prop} {f : α → Convert β} {post' : β → Prop}
    (h : Looks env p post) (hf : ∀ a, post a → Spends env held (f a) post') :
    Spends env held (p >>= f) post' where
  gives rest r r' b hr hrun := by
    obtain ⟨a, s, ha, hb⟩ := run_bind_eq_ok hrun
    obtain ⟨rfl, hpost⟩ := h.gives ha
    exact (hf a hpost).gives rest hr hb

lemma ofRead {f : Env → Convert α} (h : Spends env held (f env) post) :
    Spends env held (read >>= f) post := ⟨h.gives⟩

lemma ite {c : Prop} [Decidable c] {q : Convert α} (h : c → Spends env held p post)
    (h' : ¬ c → Spends env held q post) : Spends env held (if c then p else q) post := by
  split
  · exact h ‹_›
  · exact h' ‹_›

lemma branch {c : Prop} [Decidable c] {q : Convert α} (h : Spends env held p post)
    (h' : Spends env held q post) : Spends env held (if c then p else q) post :=
  .ite (fun _ => h) fun _ => h'

lemma map {g : α → β} {post' : β → Prop} (h : Spends env held p post)
    (hids : ∀ a, ids (g a) = ids a) (hg : ∀ a, post a → post' (g a)) :
    Spends env held (g <$> p) post' := by
  rw [map_eq_pure_bind]
  exact h.andThen fun a ha => .pure (hids a) (hg a ha)

lemma mapM {γ : Type} {f : γ → Convert β} {post' : β → Prop} (xs : List γ)
    (h : ∀ x ∈ xs, Spends env 0 (f x) post') :
    Spends env 0 (xs.mapM f) (fun ys => ∀ y ∈ ys, post' y) := by
  induction xs with
  | nil => exact .pure rfl (by simp)
  | cons x xs ih =>
    rw [List.mapM_cons]
    refine (h x (by simp)).bind fun y hy => ?_
    refine (ih fun z hz => h z (by simp [hz])).bind fun ys hys => .pure ?_ (by simpa [hy] using hys)
    simp [add_comm]

lemma mapM? {γ : Type} {f : γ → Convert β} {post' : β → Prop} (o : Option γ)
    (h : ∀ x ∈ o, Spends env 0 (f x) post') :
    Spends env 0 (o.mapM f) (fun y => ∀ b ∈ y, post' b) := by
  cases o with
  | none => exact .pure rfl (by simp)
  | some x => exact (h x rfl).map (fun _ => rfl) fun b hb => by simpa using hb

/-- A number that is held besides is dropped, and the result answers for it. -/
lemma redirecting {d : Nat} {a : EsNode} {post : EsNode → Prop} (h : post a) :
    Spends env (ids a + {d}) (do modify (·.redirect d a.id); return a) post where
  gives rest _ _ _ hr hb := by
    cases hb
    rw [add_comm (ids a), Multiset.singleton_add, Multiset.cons_add] at hr
    exact ⟨hr.redirect (Multiset.mem_add.2 (.inl (id_mem_ids a))), h⟩

end Spends

/-! ### Outcomes -/

/-- What the conversion of a node gives. -/
structure Outcome (file : SourceFile) (place : Place) (n : Node) (a : EsNode) : Prop where
  proper : Proper file a
  binding : Grammar.Binds n → place.inQuery = false → Bindable a
  parameter : n.isForm .parameter = true → Decorable a

/-- What a node gives that is neither a name, a pattern nor a parameter. -/
lemma Outcome.plain {file : SourceFile} {place : Place} {n : Node} {a : EsNode}
    (h : Proper file a) (hbinds : ¬ Grammar.Binds n) (hparameter : n.isForm .parameter = false) :
    Outcome file place n a :=
  ⟨h, fun hb => absurd hb hbinds, fun hp => by rw [hparameter] at hp; cases hp⟩

/-- The nodes below are accounted for, as long as they are anchored. -/
def Counts (env : Env) : Prop :=
  ∀ place n, SitedIn env.file n →
    Spends env 0 (fun env => env.recur place n) (Outcome env.file place n)

/-! ### Offsets -/

section Offsets

variable {n : Node} {p : Nat}

lemma cutAt_skip (h : CutAt env.file p) : CutAt env.file (Trivia.skip env.file.text p) :=
  fun he => Scanner.isCut_skip (h he)

lemma SitedIn.pos (hs : SitedIn env.file n) : CutAt env.file n.pos := fun _ => hs.anchored.pos

lemma SitedIn.stop (hs : SitedIn env.file n) : CutAt env.file n.stop := fun _ => hs.anchored.stop

lemma SitedIn.start (hs : SitedIn env.file n) : CutAt env.file (env.file.startOf n) := by
  unfold SourceFile.startOf
  split
  · exact hs.pos
  · exact (cutAt_skip hs.pos).min hs.stop

/-- What a part must be for the role that it plays. -/
lemma SitedIn.role {r : Role} {m : Node} (hs : SitedIn env.file n) (hm : n.part? r = some m) :
    Grammar.RoleFits env.file.text (env.file.errors = []) n.kind r m :=
  hs.anchored.role r m <| List.mem_filter.2
    ⟨List.mem_of_find?_eq_some hm, List.find?_some (p := fun c : Node => c.role == r) hm⟩

lemma SitedIn.range (hs : SitedIn env.file n) : SpanCut env.file (Convert.rangeOf env.file n) :=
  .between hs.start hs.stop

end Offsets

namespace Convert

/-! ### Looking -/

section Looks

variable {n : Node} {p : Nat}

lemma tokensOf_looks (hs : SitedIn env.file n) :
    Looks env (tokensOf n) (fun r => r = rangeOf env.file n ∧ SpanCut env.file r) :=
  .ofRead (.pure ⟨rfl, hs.range⟩)

lemma sourceOf_looks (r : Span) : Looks env (sourceOf r) (fun _ => True) := .ofRead (.pure trivial)

lemma isTarget_looks : Looks env isTarget (fun _ => True) := .ofRead (.pure trivial)

lemma tokenAt_looks (h : CutAt env.file p) :
    Looks env (tokenAt p) (fun t => SpanCut env.file t.2) := by
  refine .ofRead (.pure ?_)
  have hcuts (he : env.file.errors = []) := Scanner.tokenAt_cuts env.file.variant (h he)
  exact .between (fun he => (hcuts he).1) fun he => (hcuts he).2

/-- Every token that is come to on the way stands between cuts. -/
lemma findAmong_cuts {text : Source} {wanted : TokenKind} {k : Nat} {σ : Scanner} {r : Span}
    (hσ : σ.scan.Clear text) (h : findAmong wanted k σ = some r) :
    Text.IsCut text r.start ∧ Text.IsCut text r.stop := by
  induction k generalizing σ with
  | zero => cases h
  | succ k ih =>
    rw [findAmong] at h
    split at h
    · cases h
    · split at h
      · obtain rfl := Option.some.inj h
        exact ⟨hσ.start.isCut, hσ.start.isCut.max hσ.cursor.isCut⟩
      · exact ih (Scanner.scan_clear hσ.source hσ.skips hσ.cursor).1 h

lemma findToken_looks (wanted : TokenKind) (h : CutAt env.file p) :
    Looks env (findToken p wanted) (SpanCut env.file) := by
  refine .ofRead (.pure ?_)
  cases hfound : findAmong wanted (Text.bytes env.file.text + 1)
      ((Scanner.ofSource env.file.text env.file.variant true).reset p) with
  | none => exact .between h h
  | some r =>
    have hcuts (he : env.file.errors = []) :=
      findAmong_cuts (Scanner.scan_reset_clear env.file.variant (h he)) hfound
    exact ⟨fun he => (hcuts he).1, fun he => (hcuts he).2⟩

end Looks

/-! ### Making nodes -/

section Make

variable {n : Node} {native : Option Node} {r : Span} {type : NodeType} {parts : List Part}
  {held : Multiset Nat}

lemma make_spends_as {post : EsNode → Prop} (hids : ids parts = held)
    (hpost : ∀ l, l.type = type → l.range = Tree.widenOver r (parts.flatMap Part.nodes) →
      post (.node l (parts.flatMap Part.nodes))) :
    Spends env held (make native r type parts) post where
  gives rest s _ _ hr hrun := by
    cases hrun
    refine ⟨?_, hpost _ rfl rfl⟩
    have hnew := hr.next (native.map (·.label.id))
    rw [ids_eq, add_assoc, Multiset.singleton_add]
    change Accounted _ (s.size ::ₘ (ids (parts.flatMap Part.nodes) + rest))
    rw [ids_nodes, hids]
    exact hnew

/-- **What is put into a new node is spent.** -/
lemma make_spends (hr : SpanCut env.file r) (hparts : PartsHold (Proper env.file) parts)
    (hseated : Seated type (parts.flatMap Part.nodes))
    (hids : ids parts = held) :
    Spends env held (make native r type parts) (Proper env.file) := by
  refine make_spends_as hids fun l ht hl => ?_
  exact proper_node hparts hr hl (by rwa [ht])

lemma finish_spends_as {post : EsNode → Prop} (hs : SitedIn env.file n) (hids : ids parts = held)
    (hpost : ∀ l, l.type = type →
      l.range = Tree.widenOver (rangeOf env.file n) (parts.flatMap Part.nodes) →
      post (.node l (parts.flatMap Part.nodes))) :
    Spends env held (finish n type parts) post := by
  refine .after (tokensOf_looks hs) fun r hr => ?_
  rw [hr.1]
  exact make_spends_as hids hpost

lemma finish_spends (hs : SitedIn env.file n) (hparts : PartsHold (Proper env.file) parts)
    (hseated : Seated type (parts.flatMap Part.nodes))
    (hids : ids parts = held) :
    Spends env held (finish n type parts) (Proper env.file) :=
  .after (tokensOf_looks hs) fun _ hr => make_spends hr.2 hparts hseated hids

/-- A new node that can be given a type, a question mark and decorators. -/
lemma finish_bindable {f : Field} (hs : SitedIn env.file n)
    (hparts : PartsHold (Proper env.file) parts) (htype : isBindingType type = true)
    (hfield : ∀ c ∈ parts.flatMap Part.nodes, c.field = f)
    (hf : f ∉ [Field.type, .optional, .decorators])
    (hids : ids parts = held) :
    Spends env held (finish n type parts) (fun a => Proper env.file a ∧ Bindable a) := by
  refine finish_spends_as hs hids fun l ht hl => ?_
  rw [← ht] at htype
  exact ⟨proper_node hparts hs.range hl (.plain (soleField?_of_binding htype)),
    bindable_node htype hfield hf⟩

end Make

section Remake

variable {a : EsNode}

@[simp] lemma ids_settle (file : SourceFile) (a : EsNode) : ids (settle file a) = ids a :=
  ids_mapLabel fun _ => rfl

lemma restart_spends_as {start : Nat} (h : Proper env.file a) (hstart : CutAt env.file start) :
    Spends env (ids a) (restart a start)
      (fun b => Proper env.file b ∧ b.type = a.type ∧ b.children = a.children) := by
  refine .ofRead (.pure ?_ ⟨proper_settle ?_ ?_ ?_, ?_⟩)
  · rw [ids_settle]
    exact ids_mapLabel fun _ => rfl
  all_goals
    obtain ⟨l, cs⟩ := a
  · exact fun c => h.child
  · exact .between hstart h.regular.bounds.stop
  · exact h.regular.seated
  · exact ⟨rfl, rfl⟩

lemma restart_spends {start : Nat} (h : Proper env.file a) (hstart : CutAt env.file start) :
    Spends env (ids a) (restart a start) (Proper env.file) :=
  (restart_spends_as h hstart).weaken fun _ hb => hb.1

end Remake

/-! ### Parts -/

section Parts

variable (hr : Counts env) {n : Node} (hs : SitedIn env.file n)

include hr

lemma convertPart_outcome (n : Node) {part : Node} (isTarget : Bool) (hp : SitedIn env.file part) :
    Spends env 0 (convertPart n part isTarget)
      (Outcome env.file (env.place.below n isTarget) part) := ⟨(hr _ _ hp).gives⟩

lemma convertPart_spends (n : Node) {part : Node} (isTarget : Bool) (hp : SitedIn env.file part) :
    Spends env 0 (convertPart n part isTarget) (Proper env.file) :=
  (convertPart_outcome hr n isTarget hp).weaken fun _ h => h.proper

omit hr in
/-- A part that is read, whatever is done with it. -/
lemma require_spends {α : Type} [HasIds α] {held : Multiset Nat} {r : Role}
    {f : Node → Convert α} {post : α → Prop}
    (h : ∀ m, n.part? r = some m → Spends env held (f m) post) :
    Spends env held (require n r >>= f) post := by
  unfold require
  cases hm : n.part? r with
  | some m => exact h m hm
  | none => exact ⟨fun _ _ _ _ _ ha => nomatch ha⟩

include hs

lemma child_spends (r : Role) : Spends env 0 (child n r) (Proper env.file) :=
  require_spends fun _ hm => convertPart_spends hr n false (hs.of_part? hm)

lemma target_spends (r : Role) : Spends env 0 (target n r) (Proper env.file) :=
  require_spends fun _ hm => convertPart_spends hr n true (hs.of_part? hm)

lemma child?_spends (r : Role) :
    Spends env 0 (child? n r) (fun o => ∀ c ∈ o, Proper env.file c) :=
  .mapM? _ fun _ hm => convertPart_spends hr n false (hs.of_part? hm)

lemma convertAll_spends {ms : List Node} (isTarget : Bool) (hms : ∀ m ∈ ms, m ∈ n.children) :
    Spends env 0 (ms.mapM (convertPart n · isTarget)) (fun cs => ∀ c ∈ cs, Proper env.file c) :=
  .mapM ms fun m hm => convertPart_spends hr n isTarget (hs.of_mem (hms m hm))

lemma children_spends (r : Role) :
    Spends env 0 (children n r) (fun cs => ∀ c ∈ cs, Proper env.file c) :=
  convertAll_spends hr hs false fun _ hm => (List.mem_filter.1 hm).1

lemma childrenOrHoles_spends (r : Role) (isTarget : Bool) :
    Spends env 0 (childrenOrHoles n r isTarget)
      (fun cs => ∀ o ∈ cs, ∀ c ∈ o, Proper env.file c) := by
  refine .mapM (n.partsOf r) fun m hm => .branch (.pure rfl (by simp)) ?_
  refine (convertPart_spends hr n isTarget (hs.of_partsOf hm)).map (fun _ => rfl) fun c hc => ?_
  simpa using hc

lemma decorators_spends :
    Spends env 0 (decorators n) (fun cs => ∀ c ∈ cs, Proper env.file c) :=
  convertAll_spends hr hs false fun _ hm => (List.mem_filter.1 (List.mem_filter.1 hm).1).1

end Parts

end Convert

end EstreeLint.Estree
