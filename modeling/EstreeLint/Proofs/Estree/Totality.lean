import EstreeLint.Proofs.Estree.Statements

/-!
When a file converts.

What a node needs lies below it in the tree, so as many levels as the tree has are enough: a
conversion gives up only at a node that needs something missing.
-/

namespace EstreeLint

namespace Tree

variable {α : Type} {t u v : Tree α}

lemma mem_descendants_of_mem (h : u ∈ t.children) : u ∈ t.descendants :=
  mem_forestNodes.2 ⟨u, h, mem_nodes_self u⟩

lemma mem_descendants_of_child (hu : u ∈ t.children) (hv : v ∈ u.descendants) :
    v ∈ t.descendants := by
  refine mem_forestNodes.2 ⟨u, hu, ?_⟩
  rw [nodes_eq]
  exact List.mem_cons_of_mem u hv

lemma mem_descendants_trans {t u v : Tree α} (hu : u ∈ t.descendants) (hv : v ∈ u.descendants) :
    v ∈ t.descendants := by
  obtain ⟨c, hc, h⟩ := mem_forestNodes.1 hu
  have hlt := height_lt_of_mem hc
  rw [nodes_eq] at h
  rcases List.mem_cons.1 h with rfl | h
  · exact mem_descendants_of_child hc hv
  · exact mem_descendants_of_child hc (mem_descendants_trans h hv)
termination_by t.height

/-- What lies below a tree is lower. -/
lemma height_lt_of_mem_descendants {t u : Tree α} (h : u ∈ t.descendants) :
    u.height < t.height := by
  obtain ⟨c, hc, hu⟩ := mem_forestNodes.1 h
  have hlt := height_lt_of_mem hc
  rw [nodes_eq] at hu
  rcases List.mem_cons.1 hu with rfl | hu
  · exact hlt
  · exact Nat.lt_trans (height_lt_of_mem_descendants hu) hlt
termination_by t.height

end Tree

namespace Estree

/-! ### Needed nodes lie below -/

/-- The needed nodes lie below `n`. -/
def Below (n : Node) (l : Needs) : Prop := ∀ t, some t ∈ l → t.node ∈ n.descendants

namespace Below

variable {n : Node}

@[simp] lemma nil : Below n [] := by simp [Below]

@[simp] lemma none : Below n [none] := by simp [Below]

@[simp] lemma append (l l' : Needs) : Below n (l ++ l') ↔ Below n l ∧ Below n l' := by
  simp [Below, or_imp, forall_and]

@[simp] lemma fact (b : Bool) : Below n (Needs.fact b) := by
  cases b <;> simp [Needs.fact]

lemma mem_of_part? {r : Role} {m : Node} (h : n.part? r = some m) : m ∈ n.children :=
  List.mem_of_find?_eq_some h

lemma mem_of_partsOf {r : Role} {m : Node} (h : m ∈ n.partsOf r) : m ∈ n.children :=
  (List.mem_filter.1 h).1

lemma each {m : Node} {ms : List Node} (h : ∀ x ∈ ms, x ∈ n.children) :
    Below n (Needs.each m ms) := by
  intro t ht
  obtain ⟨x, hx, rfl⟩ : ∃ x ∈ ms, (⟨m.kind, x⟩ : Site) = t := by simpa [Needs.each] using ht
  exact Tree.mem_descendants_of_mem (h x hx)

@[simp] lemma must (r : Role) : Below n (Needs.must n r) := by
  intro t ht
  simp only [Needs.must, List.mem_singleton] at ht
  obtain ⟨m, hm, rfl⟩ := Option.map_eq_some_iff.1 ht.symm
  exact Tree.mem_descendants_of_mem (mem_of_part? hm)

@[simp] lemma may (r : Role) : Below n (Needs.may n r) :=
  each fun _ hx => mem_of_part? (by simpa using hx)

@[simp] lemma all (r : Role) : Below n (Needs.all n r) := each fun _ hx => mem_of_partsOf hx

@[simp] lemma listed (r : Role) : Below n (Needs.listed n r) := by
  unfold Needs.listed
  split <;> simp

@[simp] lemma filter (r : Role) (p : Node → Bool) :
    Below n (Needs.each n ((n.partsOf r).filter p)) :=
  each fun _ hx => mem_of_partsOf (List.mem_filter.1 hx).1

@[simp] lemma decorators : Below n (Needs.decorators n) := filter _ _

@[simp] lemma filled : Below n (Needs.filled n) := filter _ _

/-- What is needed of a part lies below the part, and so below the node. -/
lemma ofChild {m : Node} {l : Needs} (hm : m ∈ n.children) (h : Below m l) : Below n l :=
  fun t ht => Tree.mem_descendants_of_child hm (h t ht)

lemma within {r : Role} {need : Node → Needs} (h : ∀ m, Below m (need m)) :
    Below n (Needs.within n r need) := by
  unfold Needs.within
  cases hm : n.part? r with
  | none => simp
  | some m => exact ofChild (mem_of_part? hm) (h m)

lemma inside {r : Role} {need : Node → Needs} (h : ∀ m ∈ n.children, Below n (need m)) :
    Below n (Needs.inside n r need) := by
  unfold Needs.inside
  cases hm : n.part? r with
  | none => simp
  | some m => exact h m (mem_of_part? hm)

lemma flatMap {ms : List Node} {need : Node → Needs} (h : ∀ m ∈ ms, Below n (need m)) :
    Below n (ms.flatMap need) := by
  intro t ht
  obtain ⟨m, hm, ht⟩ := List.mem_flatMap.1 ht
  exact h m hm t ht

lemma partsFlatMap {r : Role} {need : Node → Needs} (h : ∀ m, Below m (need m)) :
    Below n ((n.partsOf r).flatMap need) :=
  flatMap fun m hm => ofChild (mem_of_partsOf hm) (h m)

@[simp] lemma signature : Below n (Needs.signature n) := by
  simp only [Needs.signature, append, listed, may, and_true, true_and]
  refine flatMap fun m hm => ?_
  rw [← List.singleton_append, append]
  refine ⟨?_, ofChild (mem_of_partsOf hm) decorators⟩
  intro t ht
  obtain rfl : t = ⟨n.kind, m⟩ := by simpa using ht
  exact Tree.mem_descendants_of_mem (mem_of_partsOf hm)

@[simp] lemma applied : Below n (Needs.applied n) := by simp [Needs.applied]

@[simp] lemma attributes : Below n (Needs.attributes n) :=
  inside fun _ hm => ofChild hm (all _)

lemma ofWant (w : Want) : Below n (Needs.ofWant n w) := by
  cases w with
  | elementsOf r => exact within fun m => all _
  | elementsIn r => exact inside fun m hm => ofChild hm (all _)
  | _ => simp [Needs.ofWant]

lemma ofWants (ws : List Want) : Below n (Needs.ofWants n ws) := by
  induction ws using Needs.ofWants.induct with
  | case1 => simp [Needs.ofWants]
  | case2 w => exact ofWant w
  | case3 w ws h ih =>
    rw [Needs.ofWants, append]
    · exact ⟨ofWant w, ih⟩
    · exact h

/-! Forms with needs of their own. -/

lemma call : Below n (Needs.call n) := by
  unfold Needs.call
  split
  · split
    · simp
    · rename_i source rest h
      refine each fun x hx => mem_of_partsOf (r := .argument) ?_
      rw [h]
      rcases List.mem_cons.1 hx with rfl | hx
      · simp
      · exact List.mem_cons_of_mem _ (List.mem_of_mem_head? (by simpa using hx))
  · simp

lemma template : Below n (Needs.template n) := by
  simp only [Needs.template, append, must, true_and]
  exact partsFlatMap fun m => by simp

lemma heritage {a b : Bool} {cs : List Node} (h : ∀ c ∈ cs, c ∈ n.children) :
    Below n (Needs.heritage a b cs) := by
  induction cs generalizing a b with
  | nil => simp [Needs.heritage]
  | cons c cs ih =>
    have hcs {a b : Bool} : Below n (Needs.heritage a b cs) := ih fun x hx => h x (by simp [hx])
    have hc : Below n ((c.partsOf .element).flatMap Needs.applied) :=
      ofChild (h c (by simp)) (partsFlatMap fun m => applied)
    have hfirst : Below n ((c.partsOf .element).head?.elim [] Needs.applied) := by
      cases hm : c.partsOf .element with
      | nil => simp
      | cons m ms =>
        rw [hm] at hc
        exact fun t ht => hc t (by simpa using .inl ht)
    unfold Needs.heritage
    split <;> split <;> simp [hcs, hc, hfirst]

/-- What the modules need that a dotted name nests. -/
lemma nested {depth : Nat} {m : Node} {need : Node → Needs} (hneed : ∀ m, Below m (need m))
    (h : m ∈ Convert.innerDeclarations depth n) : Below n (need m) := by
  induction depth generalizing n with
  | zero => simp [Convert.innerDeclarations] at h
  | succ depth ih =>
    unfold Convert.innerDeclarations at h
    cases hb : n.part? .body with
    | none => simp [hb] at h
    | some inner =>
      have hinner := mem_of_part? hb
      simp only [hb] at h
      split at h
      · rcases List.mem_cons.1 h with rfl | h
        · exact ofChild hinner (hneed _)
        · exact ofChild hinner (ih h)
      · simp at h

lemma moduleDeclaration : Below n (Needs.moduleDeclaration n) := by
  have hnested {m : Node} {need : Node → Needs} (hneed : ∀ m, Below m (need m))
      (h : m ∈ Needs.nestedModules n) : Below n (need m) := by
    unfold Needs.nestedModules at h
    split at h
    · simp at h
    · exact nested hneed h
  simp only [Needs.moduleDeclaration, append, must, true_and]
  refine ⟨flatMap fun m hm => hnested (fun _ => must _) hm, ?_⟩
  rw [List.getLastD_eq_getLast?]
  cases h : (Needs.nestedModules n).getLast? with
  | none => exact may _
  | some m => exact hnested (fun _ => may .body) (List.mem_of_getLast? h)

lemma tagName (m : Node) : Below n (Needs.tagName m) := by
  induction m using Needs.tagName.induct with
  | case1 label object property hk ih =>
    unfold Needs.tagName
    simpa only [hk] using ih
  | case2 label parts h =>
    have hname : Below n (Needs.jsxName (.node label parts)) := by
      unfold Needs.jsxName
      split <;> simp
    unfold Needs.tagName
    split
    · exact (h _ _ ‹_› rfl).elim
    · exact hname

lemma importClause {m : Node} (hm : m ∈ n.children) : Below n (Needs.importClause n m) := by
  simp only [Needs.importClause, append]
  constructor
  · split
    · intro t ht
      obtain rfl : t = ⟨n.kind, m⟩ := by simpa using ht
      exact Tree.mem_descendants_of_mem hm
    · simp
  · refine ofChild hm (inside fun b hb => ?_)
    split
    · intro t ht
      obtain rfl : t = ⟨m.kind, b⟩ := by simpa using ht
      exact Tree.mem_descendants_of_mem hb
    · exact ofChild hb (all _)

lemma exportDeclaration : Below n (Needs.exportDeclaration n) := by
  unfold Needs.exportDeclaration
  split
  · rename_i clause hc
    have hmem := mem_of_part? hc
    split
    · simpa using ofChild hmem (all _)
    · simpa using ofChild hmem (must _)
  · simp

lemma jsxName (m : Node) : Below n (Needs.jsxName m) := by
  unfold Needs.jsxName
  split <;> simp

lemma bindingElement (k : NodeKind) : Below n (Needs.bindingElement k n) := by
  unfold Needs.bindingElement
  split
  · simp
  · split <;> simp

lemma method (k : NodeKind) : Below n (Needs.method k n) := by
  unfold Needs.method
  extract_lets inType
  split
  · simp
  · split <;> simp

lemma openingElement : Below n (Needs.openingElement n) := by
  simp only [Needs.openingElement, append, listed, attributes, and_true]
  exact within fun m => tagName m

/-- What a node needs lies below it. -/
lemma formNeeds (k : NodeKind) (f : Form) : Below n (formNeeds k n f) := by
  cases f
  case arrayLiteralExpression | arrayBindingPattern => exact filled
  case callExpression => exact call
  case binaryExpression => simp [Estree.formNeeds, Needs.operands]
  case templateExpression | templateLiteralType => exact template
  case expressionWithTypeArguments => simp [Estree.formNeeds]
  case bindingElement => exact bindingElement k
  case parameter =>
    simp only [Estree.formNeeds, Needs.parameter]
    split <;> simp
  case catchClause =>
    simp only [Estree.formNeeds, append, must, and_true]
    exact inside fun m hm => ofChild hm (by simp)
  case classDeclaration | classExpression =>
    simp only [Estree.formNeeds, Needs.classLike, append, decorators, may, listed, filter, true_and,
      and_true]
    exact heritage fun c hc => mem_of_partsOf hc
  case propertyDeclaration =>
    simp only [Estree.formNeeds, Needs.property]
    split <;> simp
  case methodDeclaration | getAccessor | setAccessor => exact method k
  case interfaceDeclaration =>
    simp only [Estree.formNeeds, Needs.interface, append, must, listed, all, true_and, and_true]
    refine flatMap fun c hc => ofChild ?_ (partsFlatMap fun m => applied)
    exact mem_of_partsOf (List.mem_filter.1 hc).1
  case moduleDeclaration => exact moduleDeclaration
  case importDeclaration =>
    simp only [Estree.formNeeds, Needs.importDeclaration, append, must, attributes, and_true]
    exact inside fun m hm => importClause hm
  case exportDeclaration => exact exportDeclaration
  case importSpecifier | exportSpecifier => simp [Estree.formNeeds, Needs.specifier]
  case importAttributes => exact partsFlatMap fun m => by simp
  case mappedType =>
    simp only [Estree.formNeeds, append, may, and_true]
    exact within fun m => by simp
  case literalType =>
    simp only [Estree.formNeeds]
    split <;> simp
  case jsxOpeningElement | jsxSelfClosingElement => exact openingElement
  case jsxClosingElement => exact within fun m => tagName m
  case jsxAttribute =>
    simp only [Estree.formNeeds, append, may, and_true]
    exact within fun m => jsxName m
  case jsxNamespacedName => exact jsxName n
  all_goals exact ofWants _

end Below

lemma mem_descendants_of_needs {s t : Site} (h : some t ∈ needs s) :
    t.node ∈ s.node.descendants := by
  unfold needs at h
  split at h
  · exact Below.fact _ t h
  · exact Below.formNeeds _ _ t h

/-! ### When a file converts -/

lemma height_pos (n : Node) : 0 < n.height := by cases n; exact Nat.succ_pos _

/-- A node that the conversion comes to converts, if the file does. -/
lemma converts_of_visited {file : SourceFile} {depth : Nat}
    (h : Met (Converts depth) (Needs.all file.root .statement)) {s : Site}
    (hs : Visited file s) : ∃ d, Converts d s := by
  induction hs with
  | statement hm => exact ⟨depth, (met_each _ _).1 h _ hm⟩
  | part _ ht ih =>
    obtain ⟨d, hd⟩ := ih
    cases d with
    | zero => exact hd.elim
    | succ d =>
      obtain ⟨t, ht', hc⟩ := hd _ ht
      cases ht'
      exact ⟨d, hc⟩

/-- If nothing is missing, each node converts in as many levels as it has. -/
lemma converts_of_complete {file : SourceFile}
    (h : ∀ s, Visited file s → none ∉ needs s) (depth : Nat) {s : Site} (hs : Visited file s)
    (hd : s.node.height ≤ depth) : Converts depth s := by
  induction depth generalizing s with
  | zero => have := height_pos s.node; omega
  | succ depth ih =>
    intro o ho
    cases o with
    | none => exact (h s hs ho).elim
    | some t =>
      have := Tree.height_lt_of_mem_descendants (mem_descendants_of_needs ho)
      exact ⟨t, rfl, ih (hs.part ho) (by omega)⟩

/-- **A file converts exactly if no node that its conversion comes to lacks what it needs.** -/
theorem isOk_ofFile_iff (file : SourceFile) :
    (Conversion.ofFile file).isOk = true ↔ ∀ s, Visited file s → none ∉ needs s := by
  have hp := program_follows_file file
  have hok : (Conversion.ofFile file).isOk = true ↔
      Met (Converts file.root.height) (Needs.all file.root .statement) := by
    rw [ofFile_eq]
    constructor
    · intro h
      by_contra hm
      obtain ⟨e, he⟩ := hp.fails hm {}
      rw [he] at h
      cases h
    · intro hm
      obtain ⟨a, r, ha, -⟩ := hp.gives hm {}
      rw [ha]
      rfl
  rw [hok]
  constructor
  · intro hm s hs hnone
    obtain ⟨d, hd⟩ := converts_of_visited hm hs
    cases d with
    | zero => exact hd
    | succ d =>
      obtain ⟨t, ht, -⟩ := hd none hnone
      cases ht
  · intro h
    refine (met_each _ _).2 fun m hm => converts_of_complete h _ (.statement hm) ?_
    exact Nat.le_of_lt (Tree.height_lt_of_mem (Below.mem_of_partsOf hm))

end Estree

end EstreeLint
