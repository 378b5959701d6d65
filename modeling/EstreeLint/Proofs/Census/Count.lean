import EstreeLint.Proofs.Estree.Redirect
import EstreeLint.Proofs.Estree.Settled
import Mathlib.Algebra.Order.Group.Multiset
import Mathlib.Tactic.Abel

/-!
The numbers of the nodes in what a conversion makes, each counted as often as it is there.

A registry is accounted for by the numbers of the nodes that are held if no number is there twice
and every answer of the registry is one of them.
-/

namespace EstreeLint.Estree

variable {α β : Type}

/-! ### Numbers -/

/-- What has nodes in it, by their numbers. -/
class HasIds (α : Type) where
  ids : α → Multiset Nat

export HasIds (ids)

instance : HasIds EsNode := ⟨fun n => (n.nodes.map Tree.id : List Nat)⟩

instance [HasIds α] : HasIds (List α) := ⟨fun xs => (xs.map ids).sum⟩

instance [HasIds α] : HasIds (Option α) := ⟨fun o => o.elim 0 ids⟩

instance [HasIds α] [HasIds β] : HasIds (α × β) := ⟨fun x => ids x.1 + ids x.2⟩

section Ids

variable [HasIds α] [HasIds β]

@[simp] lemma ids_nil : ids ([] : List α) = 0 := rfl

@[simp] lemma ids_cons (x : α) (xs : List α) : ids (x :: xs) = ids x + ids xs := by
  simp [ids]

@[simp] lemma ids_append (xs ys : List α) : ids (xs ++ ys) = ids xs + ids ys := by
  simp [ids]

@[simp] lemma ids_none : ids (none : Option α) = 0 := rfl

@[simp] lemma ids_some (x : α) : ids (some x) = ids x := rfl

@[simp] lemma ids_pair (x : α) (y : β) : ids (x, y) = ids x + ids y := rfl

lemma ids_map {f : α → β} (h : ∀ x, ids (f x) = ids x) (xs : List α) :
    ids (xs.map f) = ids xs := by
  induction xs with
  | nil => rfl
  | cons x xs ih => rw [List.map_cons, ids_cons, ids_cons, h, ih]

lemma ids_flatMap (f : α → List β) (xs : List α) (h : ∀ x, ids (f x) = ids x) :
    ids (xs.flatMap f) = ids xs := by
  induction xs with
  | nil => rfl
  | cons x xs ih => rw [List.flatMap_cons, ids_append, ids_cons, h, ih]

@[simp] lemma ids_flatten (xss : List (List α)) : ids xss.flatten = ids xss := by
  rw [← List.flatMap_id]
  exact ids_flatMap id xss fun _ => rfl

lemma ids_unzip (xs : List (α × β)) : ids (xs.map (·.1)) + ids (xs.map (·.2)) = ids xs := by
  induction xs with
  | nil => rfl
  | cons x xs ih =>
    rw [List.map_cons, List.map_cons, ids_cons, ids_cons, ids_cons, ← ih]
    change _ = ids x.1 + ids x.2 + _
    abel

end Ids

/-! ### Nodes -/

section Nodes

variable {n : EsNode}

lemma ids_forest (ns : List EsNode) :
    ids ns = ((Tree.forestNodes ns).map Tree.id : List Nat) := by
  induction ns with
  | nil => rfl
  | cons n ns ih =>
    rw [ids_cons, ih, Tree.forestNodes, List.map_append, ← Multiset.coe_add]
    rfl

lemma ids_eq (n : EsNode) : ids n = {n.id} + ids n.children := by
  rw [ids_forest]
  change ((n.nodes.map Tree.id : List Nat) : Multiset Nat) = _
  rw [Tree.nodes_eq, List.map_cons]
  rfl

lemma ids_of_mem_children {c : EsNode} (h : c ∈ n.children) : ∃ more, ids n = ids c + more := by
  obtain ⟨before, after, hsplit⟩ := List.append_of_mem h
  refine ⟨{n.id} + ids before + ids after, ?_⟩
  rw [ids_eq, hsplit, ids_append, ids_cons]
  abel

lemma id_mem_ids (n : EsNode) : n.id ∈ ids n := by simp [ids_eq n]

lemma mem_ids {i : Nat} : i ∈ ids n ↔ ∃ m ∈ n.nodes, m.id = i := by
  change i ∈ ((n.nodes.map Tree.id : List Nat) : Multiset Nat) ↔ _
  rw [Multiset.mem_coe, List.mem_map]

@[simp] lemma ids_inField (f : Field) : ids (n.inField f) = ids n := by
  rw [ids_eq, ids_eq n]
  cases n
  rfl

lemma ids_mapLabel {g : Label → Label} (h : ∀ l, (g l).id = l.id) : ids (n.mapLabel g) = ids n := by
  rw [ids_eq, ids_eq n]
  cases n with
  | node l cs => exact congrArg (fun i => {i} + ids cs) (h l)

end Nodes

/-! ### Parts -/

instance : HasIds Part := ⟨fun p => ids p.nodes⟩

section Parts

variable (f : Field) (ps : List Part)

lemma ids_nodes : ids (ps.flatMap Part.nodes) = ids ps := ids_flatMap _ ps fun _ => rfl

@[simp] lemma ids_value (v : Value) : ids (Part.value f v) = 0 := rfl

@[simp] lemma ids_flag (b : Bool) : ids (Part.flag f b) = 0 := rfl

@[simp] lemma ids_text (s : String) : ids (Part.text f s) = 0 := rfl

@[simp] lemma ids_text? (s : Option String) : ids (Part.text? f s) = 0 := by cases s <;> rfl

@[simp] lemma ids_absent : ids Part.absent = 0 := rfl

@[simp] lemma ids_one (n : EsNode) : ids (Part.one f n) = ids n := by
  change ids [n.inField f] = _
  simp

@[simp] lemma ids_one? (o : Option EsNode) : ids (Part.one? f o) = ids o := by
  cases o <;> simp [Part.one?]

@[simp] lemma ids_extra (o : Option EsNode) : ids (Part.extra f o) = ids o := by
  cases o <;> simp [Part.extra]

@[simp] lemma ids_many (os : List (Option EsNode)) : ids (Part.many f os) = ids os := by
  change ids (os.filterMap fun n => n.map (·.inField f)) = _
  induction os with
  | nil => rfl
  | cons o os ih => cases o <;> simp_all

@[simp] lemma ids_list (ns : List EsNode) : ids (Part.list f ns) = ids ns := by
  rw [Part.list, ids_many]
  exact ids_map (f := some) (fun _ => rfl) ns

end Parts

namespace Convert

variable (n : Node) (left right : EsNode) (s : Signature)

@[simp] lemma ids_accessibility : ids (accessibility n) = 0 := ids_text? _ _

@[simp] lemma ids_isComputed (r : Role) : ids (isComputed n r) = 0 := rfl

@[simp] lemma ids_isAsync : ids (isAsync n) = 0 := rfl

@[simp] lemma ids_mappedMark (r : Role) : ids (mappedMark n r f) = 0 := by
  unfold mappedMark
  split <;> rfl

@[simp] lemma ids_identifierParts (name : String) : ids (identifierParts name) = 0 := by
  simp [identifierParts]

@[simp] lemma ids_literalParts (raw : String) (v : Value) : ids (literalParts raw v) = 0 := by
  simp [literalParts]

@[simp] lemma ids_propertyParts (kind : String) (computed isMethod optional shorthand : Bool) :
    ids (propertyParts (.flag .isComputed computed) left kind isMethod optional shorthand right) =
      ids left + ids right := by
  simp [propertyParts]

@[simp] lemma ids_assignmentParts : ids (assignmentParts left right) = ids left + ids right := by
  simp [assignmentParts]

@[simp] lemma ids_restParts : ids (restParts left) = ids left := by simp [restParts]

@[simp] lemma ids_unaryParts (operator : String) (before : Bool) :
    ids (unaryParts left operator before) = ids left := by
  simp [unaryParts]

@[simp] lemma ids_operationParts (operator : String) :
    ids (operationParts left operator right) = ids left + ids right := by
  simp [operationParts]

@[simp] lemma ids_declarationParts (declared : Bool) (declarations : List EsNode) :
    ids (declarationParts n declared declarations) = ids declarations := by
  simp [declarationParts]

instance : HasIds Signature := ⟨fun s => ids (signatureParts s)⟩

@[simp] lemma ids_signatureParts : ids (signatureParts s) = ids s := rfl

@[simp] lemma ids_functionParts (async declared generator : Bool) (id body : Option EsNode) :
    ids (functionParts (.flag .isAsync async) declared generator id body s) =
      ids id + ids body + ids s := by
  simp [functionParts, add_comm, add_assoc]

end Convert

/-! ### Registries -/

/-- No number is held twice, and all answers of the registry are held. -/
structure Accounted (r : Registry) (held : Multiset Nat) : Prop where
  nodup : held.Nodup
  lt_size : ∀ i ∈ held, i < r.size
  answers : ∀ m i, r.convertedOf? m = some i → i ∈ held
  answered : ∀ i m, r.nativeOf? i = some m → (r.convertedOf? m).isSome = true
  carries : r.Carries

namespace Accounted

variable {r : Registry} {held : Multiset Nat}

lemma empty : Accounted {} 0 where
  nodup := Multiset.nodup_zero
  lt_size := by simp
  answers := nofun
  answered := nofun
  carries := Registry.carries_empty

/-- The next number is a new one. -/
lemma next (h : Accounted r held) (native : Option Nat) :
    Accounted (r.next native).2 (r.size ::ₘ held) where
  nodup := Multiset.nodup_cons.2 ⟨fun hi => Nat.lt_irrefl _ (h.lt_size _ hi), h.nodup⟩
  lt_size i hi := by
    rw [Registry.size_next]
    rcases Multiset.mem_cons.1 hi with rfl | hi
    · omega
    · exact Nat.lt_succ_of_lt (h.lt_size i hi)
  answers m i hm := by
    rw [Registry.convertedOf?_next] at hm
    split at hm
    · exact Option.some.inj hm ▸ Multiset.mem_cons_self _ _
    · exact Multiset.mem_cons_of_mem (h.answers m i hm)
  answered i m hi := by
    rw [Registry.nativeOf?_next] at hi
    rw [Registry.convertedOf?_next]
    split
    · rfl
    · next hno =>
      split at hi
      · exact Option.isSome_iff_ne_none.2 fun hm => hno ⟨hi, hm⟩
      · exact h.answered i m hi
  carries := h.carries.next

/-- A number that is dropped hands its answers to one that is kept. -/
lemma redirect {d s : Nat} (h : Accounted r (d ::ₘ held)) (hs : s ∈ held) :
    Accounted (r.redirect d s) held where
  nodup := (Multiset.nodup_cons.1 h.nodup).2
  lt_size i hi := by
    rw [Registry.size_redirect]
    exact h.lt_size i (Multiset.mem_cons_of_mem hi)
  answers m i hm := by
    rw [Registry.convertedOf?_redirect h.carries] at hm
    split at hm
    · exact Option.some.inj hm ▸ hs
    · next hne =>
      refine (Multiset.mem_cons.1 (h.answers m i hm)).resolve_left fun hi => hne ?_
      rw [hm, hi]
  answered i m hi := by
    have hsome : (r.convertedOf? m).isSome = true := by
      rw [Registry.nativeOf?_redirect] at hi
      split at hi
      · exact h.answered d m hi
      · exact h.answered i m hi
    rw [Registry.convertedOf?_redirect h.carries]
    split
    · rfl
    · exact hsome
  carries := h.carries.redirect

end Accounted

end EstreeLint.Estree
