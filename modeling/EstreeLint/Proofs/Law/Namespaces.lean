import EstreeLint.Proofs.Law.Exported
import EstreeLint.Proofs.Law.Sequences

/-!
Namespaces with dots in their names.

In the syntax tree there is a namespace for each name, one in the body of another. All of them are
converted to one declaration: its name is put together from theirs, and its body is that of the
innermost. The others are not converted, which is a law: nothing comes from them.
-/

namespace EstreeLint.Estree

open EstreeLint.Estree.Convert (Nests hasWord rangeOf)

/-- A namespace that has words for its name. -/
structure IsNamespace (n : Node) : Prop where
  kind : n.kind = .form .moduleDeclaration
  plain : n.flags.globalAugmentation = false
  named : Grammar.Named n

instance : DecidablePred IsNamespace := fun n =>
  decidable_of_iff (n.kind = .form .moduleDeclaration ∧ n.flags.globalAugmentation = false ∧
    Grammar.Named n) ⟨fun h => ⟨h.1, h.2.1, h.2.2⟩, fun h => ⟨h.kind, h.plain, h.named⟩⟩

/-- The namespace is the body of another one. -/
structure IsInner (file : SourceFile) (n : Node) : Prop where
  kind : n.kind = .form .moduleDeclaration
  above : ∃ p ∈ file.root.nodes, p.kind = .form .moduleDeclaration ∧ p.part? .body = some n

/-- Behind the dots in the name of `n` there are these, the innermost last. -/
structure Unfolds (n : Node) (inner : List Node) : Prop where
  nests : Nests n inner
  whole : ∀ b, (inner.getLastD n).part? .body = some b → b.kind ≠ .form .moduleDeclaration

/-- The name of the namespace has become `a`. -/
structure NameOf (file : SourceFile) (r : Registry) (d : Node) (a : EsNode) : Prop where
  type : a.type = .identifier
  name : ∃ name, d.part? .name = some name ∧ r.nativeOf? a.id = some name.index ∧
    a.value? .name = some (.text (name.nameText?.getD "")) ∧ a.range = rangeOf file name

/-- The names of the namespaces have become `a`, from the left to the right. All the names that have
been put together start at `start`. -/
inductive NameChain (file : SourceFile) (r : Registry) (start : Nat) : List Node → EsNode → Prop
  | one {d : Node} {a : EsNode} (h : NameOf file r d a) (hstart : a.range.start = start) :
    NameChain file r start [d] a
  | more {ds : List Node} {d : Node} {left right a : EsNode} (h : NameChain file r start ds left)
    (hright : NameOf file r d right) (htype : a.type = .tsQualifiedName)
    (hcs : a.children = [left.inField .left, right.inField .right])
    (hstart : a.range.start = start) (hstop : a.range.stop = right.range.stop) :
    NameChain file r start (ds ++ [d]) a

/-- The declaration is that of the namespace: the name is put together from all names, the body is
that of the innermost, and the rest is as the outermost has it. -/
structure FoldsTo (file : SourceFile) (r : Registry) (n : Node) (inner : List Node) (m : EsNode) :
    Prop where
  id : ∃ id start, m.child? .id = some (id.inField .id) ∧ NameChain file r start (n :: inner) id
  body : ∀ b, (inner.getLastD n).part? .body = some b →
    ∃ e, m.child? .body = some e ∧ ConvertsTo file r .body b e
  declared : m.value? .isDeclared = some (.flag (hasWord n .declareKw))
  kind : m.value? .kind = some (.text (if n.flags.namespaceWord then "namespace" else "module"))

/-- What a module is converted to. -/
structure ModuleOf (file : SourceFile) (r : Registry) (n : Node) (m : EsNode) : Prop where
  type : m.type = .tsModuleDeclaration
  folds : IsNamespace n → ∃ inner, Unfolds n inner ∧ FoldsTo file r n inner m

/-- Nothing comes from a namespace in the body of another one. -/
def ModulesAt (file : SourceFile) (r : Registry) (m : EsNode) : Prop :=
  ∀ n ∈ file.root.nodes, n.kind = .form .moduleDeclaration → r.nativeOf? m.id = some n.index →
    ¬ IsInner file n ∧ (isExport m.type = true ∧ Exported n ∨ ModuleOf file r n m)

variable {file : SourceFile} {r s t : Registry} {a e m left right : EsNode} {n d b k name : Node}
  {ds inner : List Node} {start : Nat}

/-! ### Names -/

lemma NameOf.later (h : NameOf file r d a) (hrs : r.Before file s) : NameOf file s d a := by
  obtain ⟨htype, name, hname, hnative, hrest⟩ := h
  exact ⟨htype, name, hname,
    (hrs.nativeOf? (Registry.lt_size_of_nativeOf? hnative)).trans hnative, hrest⟩

lemma Parsed.startOf_le_stop (h : Parsed file) (hn : n ∈ file.root.nodes) :
    file.startOf n ≤ n.stop := by
  unfold SourceFile.startOf
  split
  · exact h.pos_le_stop n hn
  · exact Nat.min_le_right ..

/-- The name goes from where the word starts to where it ends. -/
lemma NameOf.range (h : NameOf file r d a) (hparsed : Parsed file)
    (hname : d.part? .name = some name)
    (hn : name ∈ file.root.nodes) : name.pos ≤ a.range.start ∧ a.range.stop = name.stop := by
  obtain ⟨-, name', hname', -, -, hrange⟩ := h
  obtain rfl := Option.some.inj (hname.symm.trans hname')
  rw [hrange]
  exact ⟨hparsed.pos_le_startOf hn, Nat.max_eq_right (hparsed.startOf_le_stop hn)⟩

lemma NameChain.later (h : NameChain file r start ds a) (hrs : r.Before file s) :
    NameChain file s start ds a := by
  induction h with
  | one h hstart => exact .one (h.later hrs) hstart
  | more _ hright htype hcs hstart hstop ih =>
    exact .more ih (hright.later hrs) htype hcs hstart hstop

lemma NameChain.start_eq (h : NameChain file r start ds a) : a.range.start = start := by
  cases h <;> assumption

/-- Every name in the chain has been converted. -/
lemma NameChain.nameOf (h : NameChain file r start ds a) :
    ∀ d ∈ ds, ∃ e, NameOf file r d e := by
  induction h with
  | one h _ => exact List.forall_mem_singleton.2 ⟨_, h⟩
  | more _ hright _ _ _ _ ih =>
    exact List.forall_mem_append.2 ⟨ih, List.forall_mem_singleton.2 ⟨_, hright⟩⟩

lemma FoldsTo.later (h : FoldsTo file r n inner m) (hrs : r.Before file s) :
    FoldsTo file s n inner m where
  id := by
    obtain ⟨id, start, hchild, hchain⟩ := h.id
    exact ⟨id, start, hchild, hchain.later hrs⟩
  body b hb := by
    obtain ⟨e, hchild, hconverts⟩ := h.body b hb
    exact ⟨e, hchild, hconverts.later hrs⟩
  declared := h.declared
  kind := h.kind

lemma FoldsTo.of_same (hcs : e.children = m.children) (hslots : e.label.slots = m.label.slots)
    (h : FoldsTo file r n inner m) : FoldsTo file r n inner e := by
  have hchild (f : Field) : e.child? f = m.child? f := by simp only [Tree.child?, hcs]
  have hvalue (f : Field) : e.value? f = m.value? f := by simp only [Tree.value?, hslots]
  obtain ⟨hid, hbody, hdeclared, hkind⟩ := h
  exact ⟨by rwa [hchild], by rwa [hchild], by rwa [hvalue], by rwa [hvalue]⟩

lemma ModuleOf.later (h : ModuleOf file r n m) (hrs : r.Before file s) : ModuleOf file s n m where
  type := h.type
  folds hn := by
    obtain ⟨inner, hunfolds, hfolds⟩ := h.folds hn
    exact ⟨inner, hunfolds, hfolds.later hrs⟩

lemma ModuleOf.of_same (htype : e.type = m.type) (hcs : e.children = m.children)
    (hslots : e.label.slots = m.label.slots) (h : ModuleOf file r n m) : ModuleOf file r n e where
  type := htype.trans h.type
  folds hn := by
    obtain ⟨inner, hunfolds, hfolds⟩ := h.folds hn
    exact ⟨inner, hunfolds, hfolds.of_same hcs hslots⟩

lemma ModulesAt.of_same (hid : e.id = m.id) (htype : e.type = m.type)
    (hcs : e.children = m.children) (hslots : e.label.slots = m.label.slots)
    (h : ModulesAt file r m) : ModulesAt file r e := by
  intro n hn hk hnative
  obtain ⟨hinner, hm⟩ := h n hn hk (by rwa [← hid])
  exact ⟨hinner, hm.imp (by rw [htype]; exact id) (.of_same htype hcs hslots)⟩

/-! ### The law -/

/-- A node that is read, and is not a namespace in the body of another one. -/
structure IsOuter (file : SourceFile) (n : Node) : Prop where
  mem : n ∈ file.root.nodes
  notInner : ¬ IsInner file n

lemma isOuter_of_kind (hn : n ∈ file.root.nodes) (hk : n.kind ≠ .form .moduleDeclaration) :
    IsOuter file n := ⟨hn, fun h => hk h.kind⟩

/-- Only the body of a module is kept out. -/
lemma isOuter_part {r : Role} {m : Node} (h : Parsed file) (hn : n ∈ file.root.nodes)
    (hm : m ∈ n.partsOf r) (hr : r = .body → n.kind ≠ .form .moduleDeclaration) :
    IsOuter file m := by
  refine ⟨Parsed.mem_part hn hm, fun hinner => ?_⟩
  obtain ⟨p, hp, hk, hbody⟩ := hinner.above
  have hmem := Below.mem_of_partsOf hm
  obtain rfl := Tree.parent_unique (.of_map _ h.ids) hn hp hmem (Below.mem_of_part? hbody)
  have hrole : m.role = r := by simpa using (List.mem_filter.1 hm).2
  have hrole' : m.role = .body := by simpa using (List.mem_filter.1 (mem_partsOf_of_part? hbody)).2
  exact hr (hrole.symm.trans hrole') hk

/-- Namespaces in the body of another one come to nothing of their own. -/
def moduleLaw (file : SourceFile) (h : Parsed file) : Law file where
  asks _ n := IsOuter file n
  inner n := IsOuter file n
  makes x _ := ∀ n ∈ file.root.nodes, n.kind = .form .moduleDeclaration → x ≠ some n.index
  node := ModulesAt file
  bare _ _ := True
  first_le := Terms.zero_le file
  node_inField := by
    rintro r ⟨l, cs⟩ f h
    exact .of_same (m := .node l cs) rfl rfl rfl rfl h
  bare_inField _ h := h
  node_later hrs hbelow hm n hn hk hnative := by
    rw [hrs.nativeOf? (hbelow _ (Tree.mem_nodes_self _))] at hnative
    obtain ⟨hinner, hm⟩ := hm n hn hk hnative
    exact ⟨hinner, hm.imp_right (·.later hrs)⟩
  bare_later _ _ h := h
  made hmakes _ _ := ⟨fun n hn hk hnative => absurd hnative (hmakes n hn hk), trivial⟩
  children _ _ _ _ := trivial
  synthetic _ _ _ _ := nofun
  inner_asks h := h
  inner_binds h _ := h
  inner_part hn hquiet hm := by
    refine isOuter_part h hn.mem hm fun hr hk => ?_
    subst hr
    simp [isQuiet, hk] at hquiet
  inner_spotted h :=
    ⟨h.mem, Nat.zero_le _, Nat.zero_le _, Nat.zero_le _, fun _ _ _ _ => Nat.zero_le _⟩
  inlined {n t} hn hinlined _ k hk hkind hindex := by
    obtain rfl := h.eq_of_index hn.mem hk (Option.some.inj hindex)
    exact (h.inlined_form hinlined hkind).2 (by decide)

section Upheld

variable (h : Parsed file)

include h in
lemma not_module (hn : n ∈ file.root.nodes) (hk : n.kind ≠ .form .moduleDeclaration) :
    ∀ k ∈ file.root.nodes, k.kind = .form .moduleDeclaration → some n.index ≠ some k.index := by
  intro k hmem hkind hindex
  obtain rfl := h.eq_of_index hn hmem (Option.some.inj hindex)
  exact hk hkind

lemma moduleLaw_plain (hn : n ∈ file.root.nodes) (hk : n.kind ≠ .form .moduleDeclaration) :
    Plain (moduleLaw file h) n where
  mem := hn
  pos := Nat.zero_le _
  start := Nat.zero_le _
  stop := Nat.zero_le _
  list _ _ _ _ := Nat.zero_le _
  opening _ _ := Nat.zero_le _
  part m hm := isOuter_part h hn (r := m.role) (List.mem_filter.2 ⟨hm, by simp⟩) fun _ => hk
  makes _ _ := not_module h hn hk

lemma moduleLaw_loose : Loose (moduleLaw file h) where
  chain _ hmakes _ := ⟨fun n hn hk hnative => absurd hnative (hmakes n hn hk), trivial⟩
  inner _ _ _ _ := trivial

lemma moduleLaw_rangeless : Rangeless (moduleLaw file h) where
  node {r m w loc} hm := by
    obtain ⟨l, cs⟩ := m
    exact .of_same (m := .node l cs) rfl rfl rfl rfl hm
  bare h := h

/-! ### Where names stand -/

/-- Namespaces are the bodies of others behind dots only, and everything stands in its place. -/
structure ModulesLaid (file : SourceFile) : Prop where
  well : file.WellFormed
  dotted : ∀ n ∈ file.root.nodes, n.kind = .form .moduleDeclaration → ∀ m, n.part? .body = some m →
    m.kind = .form .moduleDeclaration → Grammar.Dotted n m

namespace ModulesLaid

variable (hlaid : ModulesLaid file)

include hlaid

/-- A name stands before what is behind the dot. -/
lemma name_stop_le (hn : n ∈ file.root.nodes) (hk : n.kind = .form .moduleDeclaration)
    (hname : n.part? .name = some name) (hb : n.part? .body = some b)
    (hbk : b.kind = .form .moduleDeclaration) : name.stop ≤ b.pos := by
  obtain ⟨-, ⟨name', hname', -, hsub⟩, -⟩ := hlaid.dotted n hn hk b hb hbk
  obtain rfl := Option.some.inj (hname.symm.trans hname')
  simpa using (hlaid.well.ordered n hn).sublist hsub

/-- What stands behind the dots of a name is a namespace without words before it. -/
lemma inner_of_nests (hn : n ∈ file.root.nodes) (hk : n.kind = .form .moduleDeclaration)
    (hnests : Nests n inner) : ∀ m ∈ inner, Grammar.InnerNamespace m := by
  induction hnests with
  | nil => exact nofun
  | cons hm hk' _ ih =>
    have hmem := Tree.mem_nodes_trans hn (Tree.mem_nodes_of_mem (Below.mem_of_part? hm))
    exact List.forall_mem_cons.2 ⟨(hlaid.dotted _ hn hk _ hm hk').inner, ih hmem hk'⟩

end ModulesLaid

namespace Convert

/-- The declarations behind the dots are all of them. -/
lemma unfolds_inner (depth : Nat) (n : Node) (h : n.height ≤ depth) :
    Unfolds n (innerDeclarations depth n) := by
  refine ⟨nests_inner depth n, ?_⟩
  induction depth generalizing n with
  | zero =>
    intro b hb
    have hlt : b.height < n.height := Tree.height_lt_of_mem (Below.mem_of_part? hb)
    omega
  | succ depth ih =>
    unfold innerDeclarations
    split
    · next m hm =>
      have hlt := Tree.height_lt_of_mem (Below.mem_of_part? hm)
      split
      · rw [List.getLastD_cons]
        exact ih m (by omega)
      · next hk =>
        intro b hb
        obtain rfl := Option.some.inj (hm.symm.trans hb)
        exact fun hk' => hk (beq_iff_eq.2 hk')
    · next hnone =>
      intro b hb
      rw [List.getLastD_nil, hnone] at hb
      cases hb

/-- A module with a string for its name has no module as its body, nor has the global scope. -/
lemma inner_unfolds (hlaid : ModulesLaid file) (hn : n ∈ file.root.nodes)
    (hk : n.kind = .form .moduleDeclaration) (hname : n.part? .name = some name) :
    Unfolds n (if n.flags.globalAugmentation || name.isToken .stringLiteral then []
      else innerDeclarations n.height n) := by
  split
  · next hcond =>
    refine ⟨.nil n, fun b hb hbk => ?_⟩
    obtain ⟨hplain, ⟨name', hname', hnk, -⟩, -⟩ := hlaid.dotted n hn hk b hb hbk
    obtain rfl := Option.some.inj (hname.symm.trans hname')
    simp [hplain, Tree.isToken, hnk] at hcond
  · exact unfolds_inner _ n (Nat.le_refl _)

lemma require_run {env : Env} {role : Role} (hrun : require n role env r = .ok (d, s)) :
    n.part? role = some d ∧ s = r := by
  unfold require at hrun
  cases hm : n.part? role with
  | none =>
    rw [hm] at hrun
    cases hrun
  | some m =>
    rw [hm] at hrun
    cases hrun
    exact ⟨rfl, rfl⟩

/-- Only before the outermost namespace there may be words. -/
lemma any_declared (hlaid : ModulesLaid file) (hn : n ∈ file.root.nodes)
    (hk : n.kind = .form .moduleDeclaration) (hnests : Nests n inner) :
    (n :: inner).any (hasWord · .declareKw) = hasWord n .declareKw := by
  have hinner : inner.any (hasWord · .declareKw) = false := by
    refine List.any_eq_false.2 fun m hm => ?_
    simp [hasWord, (hlaid.inner_of_nests hn hk hnests m hm).bare]
  rw [List.any_cons, hinner, Bool.or_false]

lemma Nests.last_mem (h : Nests n inner) (hn : n ∈ file.root.nodes) :
    inner.getLastD n ∈ file.root.nodes := by
  induction h with
  | nil => exact hn
  | cons hm _ _ ih =>
    rw [List.getLastD_cons]
    exact ih (Tree.mem_nodes_trans hn (Tree.mem_nodes_of_mem (Below.mem_of_part? hm)))

variable {place : Place} {depth : Nat}

/-- **A name is converted to an identifier** over its text. -/
lemma name_run (hd : d.kind = .form .moduleDeclaration) (hname : d.part? .name = some name)
    (hk : name.kind = .token .identifier)
    (hrun : child d .name { file, place, recur := node file depth } r = .ok (a, s)) :
    NameOf file s d a := by
  have hquery : (place.below d false).inQuery = false := by simp [Place.below, Tree.isForm, hd]
  obtain ⟨name', hname', hrun⟩ := child_run hrun
  obtain rfl := Option.some.inj (hname.symm.trans hname')
  cases depth with
  | zero => cases hrun
  | succ depth =>
    have hrun : byRule name { file, place := place.below d false, recur := node file depth } r =
        .ok (a, s) := hrun
    rw [byRule, hk] at hrun
    have hrun : (if (name.nameText?.getD "" == "this") && (place.below d false).inQuery then
        finish name .thisExpression
      else finish name .identifier (identifierParts (name.nameText?.getD "")))
        { file, place := place.below d false, recur := node file depth } r = .ok (a, s) := hrun
    rw [hquery, Bool.and_false, if_neg Bool.false_ne_true] at hrun
    obtain ⟨rfl, hid, htype, hcs, hslots⟩ := finish_run hrun
    obtain ⟨-, -, -, -, hrange⟩ := make_run (w := rangeOf file name) hrun
    refine ⟨htype, name, hname, ?_, ?_, ?_⟩
    · rw [Registry.nativeOf?_next, if_pos hid]
    · rw [Tree.value?, hslots]
      rfl
    · rw [hrange, hcs]
      rfl

/-- A name that goes before another one in a qualified name. -/
lemma widenOver_pair (h : left.range.stop ≤ right.range.start) :
    let w := Tree.widenOver (Span.between left.range.start right.range.stop)
      [left.inField .left, right.inField .right]
    w.start = left.range.start ∧ w.stop = right.range.stop := by
  have := left.range.ordered
  have := right.range.ordered
  simp only [Tree.widenOver, List.foldl_cons, List.foldl_nil, Tree.range_inField, Span.widen,
    Span.between]
  omega

section Run

variable [hasked : Asked { file, place, recur := node file depth } (moduleLaw file h)]

include hasked

/-- The parts of a namespace that are read. -/
lemma part_moves (hn : IsOuter file n) (hr : r.Kept file)
    (hrun : convertPart d n false { file, place, recur := node file depth } r = .ok (a, s)) :
    Moves (moduleLaw file h) r s a :=
  hasked.moves hn hr (show node file depth (place.below d false) n r = .ok (a, s) from hrun)

lemma child_moves (hd : d ∈ file.root.nodes) (hname : d.part? .name = some name) (hr : r.Kept file)
    (hrun : child d .name { file, place, recur := node file depth } r = .ok (a, s)) :
    Moves (moduleLaw file h) r s a := by
  obtain ⟨name', hname', hrun⟩ := child_run hrun
  obtain rfl := Option.some.inj (hname.symm.trans hname')
  exact part_moves h (isOuter_part h hd (mem_partsOf_of_part? hname) nofun) hr hrun

/-- **Names are put together to the left**: those of the namespaces behind the dots, one after
another. -/
lemma qualify_run (hlaid : ModulesLaid file) {id joined : EsNode} (hnests : Nests d inner)
    (hd : d ∈ file.root.nodes) (hdk : d.kind = .form .moduleDeclaration) (hr : r.Kept file)
    (hgood : (moduleLaw file h).Good r id) (hchain : NameChain file r start (ds ++ [d]) id)
    (hbefore : ∀ b, d.part? .body = some b → b.kind = .form .moduleDeclaration →
      id.range.stop ≤ b.pos)
    (hrun : qualify id inner { file, place, recur := node file depth } r = .ok (joined, s)) :
    Moves (moduleLaw file h) r s joined ∧ NameChain file s start (ds ++ d :: inner) joined := by
  induction hnests generalizing ds id r with
  | nil =>
    cases hrun
    exact ⟨⟨.refl _, hr, hgood⟩, hchain⟩
  | @cons d m ms hm hk _ ih =>
    have hmem := Tree.mem_nodes_trans hd (Tree.mem_nodes_of_mem (Below.mem_of_part? hm))
    obtain ⟨name, hname, hnk⟩ := (hlaid.dotted d hd hdk m hm hk).inner.named
    have hnmem := Tree.mem_nodes_trans hmem (Tree.mem_nodes_of_mem (Below.mem_of_part? hname))
    rw [qualify] at hrun
    obtain ⟨right, r₁, hright, hrun⟩ := run_bind_eq_ok hrun
    obtain ⟨pair, r₂, hpair, hrun⟩ := run_bind_eq_ok hrun
    obtain ⟨hbefore₁, hkept₁, hgoodRight⟩ := child_moves h hmem hname hr hright
    have hnameOf := name_run hk hname hnk hright
    obtain ⟨hrightStart, hrightStop⟩ := hnameOf.range h hname hnmem
    have hparts : PartsHold ((moduleLaw file h).Good r₁) [.one .left id, .one .right right] := by
      have hgoodLeft := hgood.later hbefore₁
      intro c hc
      rcases List.mem_cons.1 hc with rfl | hc
      · exact hgoodLeft.inField .left
      · exact List.mem_singleton.1 hc ▸ Terms.Good.inField hgoodRight .right
    have hmakes : Makes (moduleLaw file h) none .tsQualifiedName := fun _ _ _ hindex =>
      Option.some_ne_none _ hindex.symm
    obtain ⟨⟨hbefore₂, hkept₂, hgoodPair⟩, htype, -, hcs, hrange, -⟩ :=
      make_moves (t := .tsQualifiedName) (Nat.zero_le _) hparts hmakes (by decide)
        (fun hsequence => by cases hsequence) hkept₁ hpair
    have horder : id.range.stop ≤ right.range.start := by
      have hpos := hbefore m hm hk
      have hinside := (hlaid.well.nested m hmem name (Below.mem_of_part? hname)).1
      omega
    obtain ⟨hstart, hstop⟩ := widenOver_pair horder
    have hcs : pair.children = [id.inField .left, right.inField .right] := hcs
    have hstart : pair.range.start = start := by
      rw [hrange, hcs, ← hchain.start_eq]
      exact hstart
    have hstop : pair.range.stop = right.range.stop := by
      rw [hrange, hcs]
      exact hstop
    have hpairChain := NameChain.more (hchain.later (hbefore₁.trans hbefore₂))
      (hnameOf.later hbefore₂) htype hcs hstart hstop
    obtain ⟨⟨hbefore₃, hkept₃, hgoodJoined⟩, hjoined⟩ := ih hmem hk hkept₂ hgoodPair hpairChain
      (fun b hb hbk => by
        rw [hstop, hrightStop]
        exact hlaid.name_stop_le hmem hk hname hb hbk) hrun
    refine ⟨⟨(hbefore₁.trans hbefore₂).trans hbefore₃, hkept₃, hgoodJoined⟩, ?_⟩
    rwa [List.append_assoc] at hjoined

/-- The name of a namespace, whether or not there are dots in it. -/
lemma id_run (hlaid : ModulesLaid file) {first id : EsNode} (hn : n ∈ file.root.nodes)
    (hk : n.kind = .form .moduleDeclaration) (hname : n.part? .name = some name) (hr : r.Kept file)
    (hnests : Nests n inner)
    (hfirst : child n .name { file, place, recur := node file depth } r = .ok (first, s))
    (hrun : qualify first inner { file, place, recur := node file depth } s = .ok (id, t)) :
    Moves (moduleLaw file h) r t id ∧
      (IsNamespace n → ∃ start, NameChain file t start (n :: inner) id) := by
  obtain ⟨hbefore₁, hkept₁, hgood₁⟩ : Moves (moduleLaw file h) r s first :=
    child_moves h hn hname hr hfirst
  have hnamed (hspace : IsNamespace n) : Moves (moduleLaw file h) s t id ∧
      NameChain file t first.range.start (n :: inner) id := by
    obtain ⟨-, -, name', hname', hnk⟩ := hspace
    obtain rfl := Option.some.inj (hname.symm.trans hname')
    have hnameOf := name_run hk hname hnk hfirst
    have hnmem := Tree.mem_nodes_trans hn (Tree.mem_nodes_of_mem (Below.mem_of_part? hname))
    have hchain : NameChain file s first.range.start ([] ++ [n]) first := .one hnameOf rfl
    refine qualify_run h hlaid hnests hn hk hkept₁ hgood₁ hchain (fun b hb hbk => ?_) hrun
    rw [(hnameOf.range h hname hnmem).2]
    exact hlaid.name_stop_le hn hk hname hb hbk
  refine ⟨?_, fun hspace => ⟨_, (hnamed hspace).2⟩⟩
  by_cases hspace : IsNamespace n
  · obtain ⟨hbefore₂, hkept₂, hgood₂⟩ := (hnamed hspace).1
    exact ⟨hbefore₁.trans hbefore₂, hkept₂, hgood₂⟩
  · -- behind a dot there would be a namespace, and then this is one as well
    cases hnests with
    | nil =>
      cases hrun
      exact ⟨hbefore₁, hkept₁, hgood₁⟩
    | cons hm hmk _ =>
      obtain ⟨hplain, ⟨name', hname', hnk, -⟩, -⟩ := hlaid.dotted n hn hk _ hm hmk
      exact absurd ⟨hk, hplain, name', hname', hnk⟩ hspace

/-- The body of the innermost namespace. -/
lemma body_run {o : Option EsNode} (hd : d ∈ file.root.nodes)
    (hwhole : ∀ b, d.part? .body = some b → b.kind ≠ .form .moduleDeclaration) (hr : r.Kept file)
    (hrun : child? d .body { file, place, recur := node file depth } r = .ok (o, s)) :
    Moves (moduleLaw file h) r s o ∧ ∀ b, d.part? .body = some b →
      ∃ e, o = some e ∧ ConvertsTo file s .body b (e.inField .body) := by
  unfold child? at hrun
  cases hb : d.part? .body with
  | none =>
    rw [hb] at hrun
    cases hrun
    refine ⟨⟨.refl r, hr, fun _ hx => ?_⟩, fun _ hb' => ?_⟩
    · cases hx
    · cases hb'
  | some b =>
    rw [hb] at hrun
    obtain ⟨e, r₁, he, hrun⟩ := run_bind_eq_ok
      (p := convertPart d b) (f := fun e => pure (some e)) hrun
    cases hrun
    have hmem := Tree.mem_nodes_trans hd (Tree.mem_nodes_of_mem (Below.mem_of_part? hb))
    obtain ⟨hbefore, hkept, hgood⟩ : Moves (moduleLaw file h) r s e :=
      part_moves h (isOuter_of_kind hmem (hwhole b hb)) hr he
    refine ⟨⟨hbefore, hkept, fun _ hx => Option.some.inj hx ▸ hgood⟩, fun b' hb' => ?_⟩
    obtain rfl := Option.some.inj hb'
    exact ⟨e, rfl, depth, place.below d false, r, s, e, rfl, he, .refl s, rfl⟩

/-- A draft of a namespace, and what is made of it whatever stands around it. -/
lemma moduleDraft_run (hlaid : ModulesLaid file) {draft : Draft .moduleDeclaration}
    (hn : n ∈ file.root.nodes) (hk : n.kind = .form .moduleDeclaration) (hr : r.Kept file)
    (hrun : moduleDraft n { file, place, recur := node file depth } r = .ok (draft, s)) :
    r.Before file s ∧ s.Kept file ∧ PartsHold ((moduleLaw file h).Good s) draft.parts ∧
      draft.type = .tsModuleDeclaration ∧ ∀ m : EsNode, m.type = draft.type →
        m.children = draft.parts.flatMap Part.nodes →
        m.label.slots = draft.parts.filterMap Part.slot? → ModuleOf file s n m := by
  obtain ⟨name, r₀, hrequire, hrest⟩ := run_bind_eq_ok hrun
  obtain ⟨hname, rfl⟩ := require_run hrequire
  have hunfolds := inner_unfolds hlaid hn hk hname
  dsimp only at hrest
  generalize (if n.flags.globalAugmentation || name.isToken .stringLiteral then []
    else innerDeclarations n.height n) = inner at hrest hunfolds
  obtain ⟨first, r₁, hfirst, hrun⟩ := run_bind_eq_ok hrest
  obtain ⟨id, r₂, hid, hrun⟩ := run_bind_eq_ok hrun
  obtain ⟨body, _, hbody, hrun⟩ := run_bind_eq_ok hrun
  cases hrun
  have hdeclared := any_declared hlaid hn hk hunfolds.nests
  have hkind (hspace : IsNamespace n) : (if n.flags.globalAugmentation then "global"
      else if name.isToken .stringLiteral || !n.flags.namespaceWord then "module"
      else "namespace") = if n.flags.namespaceWord then "namespace" else "module" := by
    obtain ⟨-, hplain, name', hname', hnk⟩ := hspace
    obtain rfl := Option.some.inj (hname.symm.trans hname')
    cases hword : n.flags.namespaceWord <;> simp [hplain, Tree.isToken, hnk]
  obtain ⟨⟨hbefore₂, hkept₂, hgoodId⟩, hchain⟩ :=
    id_run h hlaid hn hk hname hr hunfolds.nests hfirst hid
  obtain ⟨⟨hbefore₃, hkept₃, hgoodBody⟩, hconverts⟩ :=
    body_run h (hunfolds.nests.last_mem hn) hunfolds.whole hkept₂ hbody
  have hnodes {b g : Bool} {k : String} : [Part.one? .body body, .flag .isDeclared b,
      .flag .isGlobal g, .one .id id, .text .kind k].flatMap Part.nodes =
        (body.map (·.inField .body)).toList ++ [id.inField .id] := by cases body <;> rfl
  refine ⟨hbefore₂.trans hbefore₃, hkept₃, ?_, rfl,
    fun m htype hcs hslots => ⟨htype, fun hspace => ?_⟩⟩
  · intro c hc
    rw [hnodes] at hc
    rcases List.mem_append.1 hc with hc | hc
    · obtain ⟨b, hb, rfl⟩ := Option.map_eq_some_iff.1 (Option.mem_toList.1 hc)
      exact (hgoodBody b hb).inField .body
    · rw [List.mem_singleton.1 hc]
      exact (hgoodId.later hbefore₃).inField .id
  · obtain ⟨start, hchain⟩ := hchain hspace
    rw [hnodes] at hcs
    have hslots : m.label.slots = _ := hslots
    refine ⟨inner, hunfolds, ⟨id, start, ?_, hchain.later hbefore₃⟩, fun b hb => ?_, ?_, ?_⟩
    · cases body <;> simp [Tree.child?, hcs]
    · obtain ⟨e, rfl, he⟩ := hconverts b hb
      exact ⟨_, by simp [Tree.child?, hcs], he⟩
    · rw [Tree.value?, hslots, hdeclared]
      cases body <;> rfl
    · rw [Tree.value?, hslots, ← hkind hspace]
      cases body <;> rfl

omit hasked in
/-- What is made of a module, or put around that as an export, keeps to the law. -/
lemma good_of_module {m : EsNode} (hn : IsOuter file n) (hnative : s.nativeOf? m.id = some n.index)
    (hm : isExport m.type = true ∧ Exported n ∨ ModuleOf file s n m)
    (hcs : ∀ c ∈ m.children, (moduleLaw file h).Good s c) : (moduleLaw file h).Good s m := by
  have htype : m.type = .exportNamedDeclaration ∨ m.type = .exportDefaultDeclaration ∨
      m.type = .tsModuleDeclaration := by
    rcases hm with ⟨hexport, -⟩ | hm
    · simpa [isExport, or_assoc] using Or.inl (b := m.type = .tsModuleDeclaration) hexport
    · exact .inr (.inr hm.type)
  refine .ofNode (Registry.lt_size_of_nativeOf? hnative) (Nat.zero_le _) ?_ ?_ ?_ ⟨?_, trivial⟩
    fun c hc => (hcs c hc).noted
  · rcases htype with h | h | h <;> simp [h]
  · rcases htype with h | h | h <;> simp [h]
  · rcases htype with h | h | h <;> simp [h, isEdited, isBindingType]
  · intro k hk _ hindex
    obtain rfl := h.eq_of_index hk hn.mem (Option.some.inj (hindex.symm.trans hnative))
    exact ⟨hn.notInner, hm⟩

/-- **What comes of a module** that is not the body of another one. -/
theorem module_gives (hlaid : ModulesLaid file) (hn : IsOuter file n)
    (hk : n.kind = .form .moduleDeclaration) :
    Gives { file, place, recur := node file depth } (moduleLaw file h) .none
      (ruleFor n .moduleDeclaration) where
  moves {r s a} _ hkept hrun := by
    rw [ruleFor_eq_draft (p := moduleDraft n) rfl] at hrun
    obtain ⟨draft, r₁, hdraft, hrun⟩ := run_bind_eq_ok hrun
    obtain ⟨e, r₂, hfinish, hwrap⟩ := run_bind_eq_ok hrun
    obtain ⟨hbefore, hkept₁, hparts, -, hmodule⟩ :=
      moduleDraft_run h hlaid hn.mem hk hkept hdraft
    obtain ⟨rfl, hid, htype, hcs, hslots⟩ := finish_run hfinish
    have hstep := @Registry.Before.next file r₁ (some n.index)
    have hkept₂ := hkept₁.next (some n.index)
    have hnative : (r₁.next (some n.index)).2.nativeOf? e.id = some n.index := by
      rw [Registry.nativeOf?_next, if_pos hid]
    have hmodule := (hmodule e htype hcs hslots).later hstep
    have hchildren : ∀ c ∈ e.children, (moduleLaw file h).Good (r₁.next (some n.index)).2 c :=
      fun c hc => (hparts c (hcs ▸ hc)).later hstep
    by_cases he : Exported n
    · obtain ⟨word, rest, hwords⟩ := he
      obtain ⟨inner, w, ps, hrestart, -, hps, hmake⟩ := wrapExport_run hwords.words hwrap
      obtain ⟨hid', htype', hcs', hslots'⟩ := restart_same hrestart
      obtain ⟨rfl, haid, hatype, hacs, -⟩ := make_run hmake
      have hstep₂ := @Registry.Before.next file (r₁.next (some n.index)).2 (some n.index)
      have hinner := good_of_module h hn (hid' ▸ hnative)
        (.inr (hmodule.of_same htype' hcs' hslots')) (hcs' ▸ hchildren)
      refine ⟨(hbefore.trans hstep).trans hstep₂, hkept₂.next _, ?_⟩
      refine good_of_module h hn (by rw [Registry.nativeOf?_next, if_pos haid])
        (.inl ⟨hatype ▸ isExport_exportType rest, word, rest, hwords⟩) fun c hc => ?_
      rw [hacs, hps, List.mem_singleton] at hc
      exact hc ▸ (hinner.later hstep₂).inField .declaration
    · rw [wrapExport_eq_pure hk (by decide) he] at hwrap
      cases hwrap
      exact ⟨hbefore.trans hstep, hkept₂, good_of_module h hn hnative (.inr hmodule) hchildren⟩

end Run

end Convert

theorem moduleLaw_upheld (hlaid : ModulesLaid file) : (moduleLaw file h).Upheld := by
  intro place depth n hasked hn
  by_cases hk : n.kind = .form .moduleDeclaration
  · refine Convert.byRule_gives (fun f _ hkf => ?_) fun hno => absurd hk (hno _ (by decide))
    obtain rfl := NodeKind.form.inj (hk.symm.trans hkf)
    exact Convert.module_gives h hlaid hn hk
  · have hplain := moduleLaw_plain h hn.mem hk
    have hmakes (t : NodeType) : (moduleLaw file h).makes (some n.index) t :=
      not_module h hn.mem hk
    refine Convert.byRule_gives (fun f hf hkf => ?_) fun _ => hplain
    rcases List.mem_append.1 hf with hf | hf
    · rcases List.mem_append.1 hf with hf | hf
      · exact Convert.targetRule_gives hplain hkf hf hplain.part fun _ _ => hmakes _
      · exact Convert.linkRule_gives hplain (moduleLaw_loose h) hkf hf fun t _ => hmakes t
    · exact Convert.exportRule_gives hplain (moduleLaw_rangeless h) hkf hf fun hk' => absurd hk' hk

end Upheld

/-! ### Namespaces in a converted tree -/

/-- The namespace `n`, with `inner` behind the dots in its name, has become `e`. -/
structure Folded (file : SourceFile) (c : Conversion) (n : Node) (inner : List Node) (e : EsNode) :
    Prop where
  unfolds : Unfolds n inner
  type : e.type = .tsModuleDeclaration
  native : c.registry.nativeOf? e.id = some n.index
  folds : FoldsTo file c.registry n inner e
  /-- No other declaration comes from any of the namespaces. -/
  only : ∀ d ∈ n :: inner, ∀ m ∈ c.program.nodes, m.type = .tsModuleDeclaration →
    c.registry.nativeOf? m.id = some d.index → m = e
  /-- Nothing answers for the namespaces behind the dots. -/
  unanswered : ∀ m ∈ inner, c.registry.convertedOf? m.index = none
  names : ∀ d ∈ n :: inner, ∃ name i, d.part? .name = some name ∧
    c.registry.convertedOf? name.index = some i

lemma IsInner.mem (h : IsInner file n) : n ∈ file.root.nodes := by
  obtain ⟨p, hp, -, hbody⟩ := h.above
  exact Tree.mem_nodes_trans hp (Tree.mem_nodes_of_mem (Below.mem_of_part? hbody))

lemma isInner_of_nests (hn : n ∈ file.root.nodes) (hk : n.kind = .form .moduleDeclaration)
    (hnests : Nests n inner) : ∀ m ∈ inner, IsInner file m := by
  induction hnests with
  | nil => exact nofun
  | @cons n m ms hm hk' _ ih =>
    have hmem := Tree.mem_nodes_trans hn (Tree.mem_nodes_of_mem (Below.mem_of_part? hm))
    exact List.forall_mem_cons.2 ⟨⟨hk', n, hn, hk, hm⟩, ih hmem hk'⟩

lemma modulesLaid_parse (name : String) (text : Source) :
    ModulesLaid (SourceFile.parse name text) where
  well := SourceFile.wellFormed_parse name text
  dotted _ hn hk m hm hk' := (SourceFile.graded_parse hn).dotted hk m hm hk'

section Answers

variable {name : String} {text : Source} {c : Conversion}
  (h : Conversion.ofFile (SourceFile.parse name text) = .ok c)

include h

/-- A module is numbered twice at most, and once where it is not exported. -/
lemma timesOf_module_le {cap : Nat} (hn : n ∈ (SourceFile.parse name text).root.nodes)
    (hk : n.kind = .form .moduleDeclaration) (hone : 1 ≤ cap) (hcap : 2 ≤ cap ∨ ¬ Exported n) :
    c.registry.timesOf n.index ≤ cap := by
  have hparsed := parsed_parse name text
  have hgrew : Registry.Grew (SourceFile.parse name text) n.index cap {} c.registry := by
    refine ofFile_grew ⟨hparsed, fun m hm hindex => ?_⟩ joins_of_comma hone
      (fun m hm hindex => ?_) h
    all_goals obtain rfl := hparsed.eq_of_index hm hn hindex
    · exact ⟨_, hk⟩
    · refine hcap.imp_right fun he => .inr ⟨hk, fun word rest hwords => he ⟨word, rest, ?_, hwords⟩⟩
      exact ⟨_, by decide, hk⟩
  have htimes : c.registry.timesOf n.index ≤ 0 + cap := hgrew.times
  rwa [Nat.zero_add] at htimes

lemma moduleLaw_moves :
    Moves (moduleLaw _ (parsed_parse name text)) {} c.registry c.program := by
  have hparsed := parsed_parse name text
  have hroot : (SourceFile.parse name text).root.kind ≠ .form .moduleDeclaration := by
    rw [show (SourceFile.parse name text).root.kind = .form .sourceFile from rfl]
    decide
  exact ofFile_moves hparsed.sited (moduleLaw_upheld hparsed (modulesLaid_parse name text))
    (moduleLaw_plain hparsed (Tree.mem_nodes_self _) hroot) h

/-- What answers for a module is no export, and no other declaration comes from the module. -/
lemma answer_of_module {i : Nat} (hn : n ∈ (SourceFile.parse name text).root.nodes)
    (hk : n.kind = .form .moduleDeclaration) (hi : c.registry.convertedOf? n.index = some i) :
    ∃ e ∈ c.program.nodes, e.id = i ∧ c.registry.nativeOf? e.id = some n.index ∧
      (Exported n → isExport e.type = false) ∧
      ∀ m ∈ c.program.nodes, m.type = .tsModuleDeclaration →
        c.registry.nativeOf? m.id = some n.index → m = e := by
  have hparsed := parsed_parse name text
  have hfits := fitsTree_ofFile h
  obtain ⟨e, he, rfl⟩ := hfits.answers n.index i hi
  have hnative : c.registry.nativeOf? e.id = some n.index :=
    ((moduleLaw_moves h).kept.comes _ _ hi).resolve_right
      (hparsed.not_mobile_of_declaration hn (by decide) hk)
  have hsame {m : EsNode} (hm : m ∈ c.program.nodes) (hid : m.id = e.id) : m = e :=
    List.inj_on_of_nodup_map hfits.distinct hm he hid
  by_cases hexported : Exported n
  · obtain ⟨word, rest, hwords⟩ := hexported
    have hdeclaration : Grammar.isDeclaration n.kind = true := by rw [hk]
    obtain ⟨wrapper, hwrapper, inner, hchild, hid, hne, hwraps⟩ :=
      (exportsFit_ofFile h).answers n hn hdeclaration word rest hwords.words e.id hi
    obtain rfl := hsame (Tree.mem_nodes_trans hwrapper (Tree.mem_nodes_of_mem hchild)) hid
    obtain ⟨f, -, hdeclared⟩ := hwraps.declared
    refine ⟨inner, he, rfl, hnative, fun _ => (Convert.of_declaredAs hdeclared).1,
      fun m hm ht hm' => ?_⟩
    by_contra hother
    have htimes := timesOf_module_le h hn hk (Nat.le_succ 1) (.inl (Nat.le_refl 2))
    have hmne : m.id ≠ wrapper.id := fun heq => by
      obtain rfl := List.inj_on_of_nodup_map hfits.distinct hm hwrapper heq
      cases (ht.symm.trans hwraps.type) ▸ isExport_exportType rest
    have hmne' : m.id ≠ inner.id := fun heq => hother (hsame hm heq)
    have hnodup : [m.id, inner.id, wrapper.id].Nodup := by simp [hmne, hmne', hne.symm]
    have hlength : 3 ≤ c.registry.timesOf n.index :=
      Registry.length_le_timesOf hnodup (by simp [hm', hnative, hwraps.native])
    omega
  · refine ⟨e, he, rfl, hnative, fun hexported' => absurd hexported' hexported,
      fun m hm _ hm' => ?_⟩
    by_contra hother
    have htimes := timesOf_module_le h hn hk (Nat.le_refl 1) (.inr hexported)
    have hnodup : [m.id, e.id].Nodup := by
      simpa using fun heq => hother (hsame hm heq)
    have hlength : 2 ≤ c.registry.timesOf n.index :=
      Registry.length_le_timesOf hnodup (by simp [hm', hnative])
    omega

/-- Nothing comes from what is behind the dots, and nothing answers for it. -/
lemma unanswered_of_inner (hinner : IsInner (SourceFile.parse name text) n) :
    c.registry.convertedOf? n.index = none := by
  cases hi : c.registry.convertedOf? n.index with
  | none => rfl
  | some i =>
    obtain ⟨e, he, -, hnative, -⟩ := answer_of_module h hinner.mem hinner.kind hi
    have hat := ((moduleLaw_moves h).good.noted e he).node n hinner.mem hinner.kind hnative
    exact absurd hinner hat.1

end Answers

/-- **A namespace is converted to one declaration, whatever dots there are in its name**: the name
is put together to the left, the body is the innermost one, and the other namespaces come to nothing
of their own. -/
theorem namespaces_fold (name : String) (text : Source) (c : Conversion)
    (h : Conversion.ofFile (SourceFile.parse name text) = .ok c) :
    ∀ n ∈ (SourceFile.parse name text).root.nodes, IsNamespace n →
      ∀ i, c.registry.convertedOf? n.index = some i →
        ∃ inner, ∃ e ∈ c.program.nodes, e.id = i ∧
          Folded (SourceFile.parse name text) c n inner e := by
  intro n hn hspace i hi
  have hfits := fitsTree_ofFile h
  obtain ⟨e, he, rfl, hnative, hexport, honly⟩ := answer_of_module h hn hspace.kind hi
  have hmodule : ModuleOf (SourceFile.parse name text) c.registry n e := by
    obtain ⟨-, ⟨hexport', hexported⟩ | hmodule⟩ :=
      ((moduleLaw_moves h).good.noted e he).node n hn hspace.kind hnative
    · cases (hexport hexported).symm.trans hexport'
    · exact hmodule
  obtain ⟨inner, hunfolds, hfolds⟩ := hmodule.folds hspace
  have hunanswered : ∀ m ∈ inner, c.registry.convertedOf? m.index = none := fun m hm =>
    unanswered_of_inner h (isInner_of_nests hn hspace.kind hunfolds.nests m hm)
  refine ⟨inner, e, he, rfl, hunfolds, hmodule.type, hnative, hfolds, fun d hd m hm ht hm' => ?_,
    hunanswered, fun d hd => ?_⟩
  · rcases List.mem_cons.1 hd with rfl | hd
    · exact honly m hm ht hm'
    · obtain ⟨j, hj⟩ := hfits.answered m hm _ hm'
      cases hj.symm.trans (hunanswered d hd)
  · obtain ⟨id, start, -, hchain⟩ := hfolds.id
    obtain ⟨a, -, name', hname', ha, -⟩ := hchain.nameOf d hd
    obtain ⟨j, hj⟩ := Option.isSome_iff_exists.1
      ((accounted_ofFile (sitedIn_parse name text) h).1.answered a.id name'.index ha)
    exact ⟨name', j, hname', hj⟩

/-- Dots behind words, and in the block behind them a namespace with a dot of its own. -/
def dottedNames : Source := "export declare namespace A.B.C \x7b namespace D.E \x7b\x7d \x7d".toList

set_option maxRecDepth 10000 in
theorem dottedNames_fold :
    ∃ c, Conversion.ofFile (SourceFile.parse "a.ts" dottedNames) = .ok c ∧
      ∃ n ∈ (SourceFile.parse "a.ts" dottedNames).root.nodes, IsNamespace n ∧
        ∃ i, c.registry.convertedOf? n.index = some i ∧
          ∃ inner, ∃ e ∈ c.program.nodes, e.id = i ∧
            Folded (SourceFile.parse "a.ts" dottedNames) c n inner e := by
  have hok : (Conversion.ofFile (SourceFile.parse "a.ts" dottedNames)).toOption.any (fun c =>
      (SourceFile.parse "a.ts" dottedNames).root.nodes.any fun n =>
        decide (IsNamespace n ∧ (c.registry.convertedOf? n.index).isSome = true)) = true := by
    decide +kernel
  obtain ⟨c, h, hany⟩ := Conversion.exists_of_any hok
  obtain ⟨n, hn, hcase⟩ := List.any_eq_true.1 hany
  obtain ⟨hspace, hconverted⟩ := of_decide_eq_true hcase
  obtain ⟨i, hi⟩ := Option.isSome_iff_exists.1 hconverted
  exact ⟨c, h, n, hn, hspace, i, hi, namespaces_fold _ _ c h n hn hspace i hi⟩

lemma not_isInner (h : ∀ p ∈ file.root.nodes, (p.part? .body).map (·.index) ≠ some n.index) :
    ¬ IsInner file n := by
  intro hinner
  obtain ⟨p, hp, -, hbody⟩ := hinner.above
  exact h p hp (congrArg (Option.map (·.index)) hbody)

/-- A namespace in a decorator that is dropped. -/
def droppedNamespace : Source :=
  "@(() => \x7b namespace A.B \x7b\x7d \x7d) function f() \x7b\x7d".toList

set_option maxRecDepth 10000 in
/-- There is no module in the tree if the declaration is not converted at all, though the text is
read without an error and a namespace that is not behind a dot stands in it. -/
theorem namespace_lost :
    (SourceFile.parse "a.ts" droppedNamespace).errors = [] ∧
      (∃ n ∈ (SourceFile.parse "a.ts" droppedNamespace).root.nodes,
        IsNamespace n ∧ ¬ IsInner (SourceFile.parse "a.ts" droppedNamespace) n) ∧
      ∃ c, Conversion.ofFile (SourceFile.parse "a.ts" droppedNamespace) = .ok c ∧
        ∀ m ∈ c.program.nodes, m.type ≠ .tsModuleDeclaration := by
  have hnode : ∃ n ∈ (SourceFile.parse "a.ts" droppedNamespace).root.nodes, IsNamespace n ∧
      ∀ p ∈ (SourceFile.parse "a.ts" droppedNamespace).root.nodes,
        (p.part? .body).map (·.index) ≠ some n.index := by
    decide +kernel
  have hok : (Conversion.ofFile (SourceFile.parse "a.ts" droppedNamespace)).toOption.any (fun c =>
      c.program.nodes.all fun m => decide (m.type ≠ .tsModuleDeclaration)) = true := by
    decide +kernel
  obtain ⟨n, hn, hspace, hinner⟩ := hnode
  obtain ⟨c, h, hall⟩ := Conversion.exists_of_any hok
  exact ⟨by decide +kernel, ⟨n, hn, hspace, not_isInner hinner⟩, c, h,
    fun m hm => of_decide_eq_true (List.all_eq_true.1 hall m hm)⟩

end EstreeLint.Estree
