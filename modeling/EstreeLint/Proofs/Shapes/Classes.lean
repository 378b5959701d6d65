import EstreeLint.Proofs.Shapes.Types

/-!
What the rules for classes shape, and what is known of a declaration behind its modifiers.
-/

namespace EstreeLint.Grammar

open Parse

set_option synthInstance.maxSize 20000

variable {text : Source} {R : Runner} {q : Nat} {Γ : Prop} [ShapesGoals text R]

/-! ### Heritage -/


omit [ShapesGoals text R] in
instance {e : Node} [h : Behind Γ text q e] : Behind Γ text q (splitTypeArguments? e) := by
  refine ⟨fun hΓ x hx => ?_⟩
  obtain ⟨⟨he, hq⟩, -⟩ := h.holds hΓ
  unfold splitTypeArguments? at hx
  split at hx
  · next hform =>
    have hkind : e.kind ≠ .form .arrayBindingPattern := by
      rw [beq_iff_eq.1 hform]
      decide
    have hpart {m : Node} (hm : m ∈ e.children) : From text q m :=
      ⟨⟨he.of_mem hm, Nat.le_trans hq (he.shape.within m hm)⟩,
        he.shape.ownKeys m hm (absurd · hkind)⟩
    obtain ⟨name, hname, rfl⟩ := Option.map_eq_some_iff.1 hx
    refine ⟨hpart (List.mem_of_find?_eq_some hname), fun l hl => ?_⟩
    refine ⟨Nat.le_trans hq (he.shape.lists _ l hl), fun m hm => ?_⟩
    obtain ⟨span, -, rfl⟩ := Option.map_eq_some_iff.1 hl
    exact hpart (List.mem_filter.1 hm).1
  · cases hx

omit [ShapesGoals text R] in
/-- What an expression is applied to, taken apart from its type arguments. -/
lemma Reads.ofSplit {β : Type} {out : β → Prop} {p : Parse β} (e : Node) [h : Behind Γ text q e]
    (hp : ∀ name args, (splitTypeArguments? e).getD (e, none) = (name, args) →
      Reads (From text q name ∧ From text q args ∧ Γ) text R q p out) : Reads Γ text R q p out := by
  have hsplit : Behind Γ text q (splitTypeArguments? e) := inferInstance
  refine (hp _ _ rfl).known fun hΓ => ?_
  cases hx : splitTypeArguments? e with
  | none => exact ⟨h.holds hΓ, fun _ => nofun, hΓ⟩
  | some x =>
    have hpair := hsplit.holds hΓ x hx
    exact ⟨hpair.1, hpair.2, hΓ⟩

instance : Shapes Γ text R q heritageType := by
  refine .start fun q => .bind inferInstance fun e => ?_
  cases hsplit : splitTypeArguments? e with
  | some split =>
    have hb : Behind (From text q e ∧ Γ) text q (splitTypeArguments? e) := inferInstance
    refine .known (Δ := From text q split ∧ Γ) ?_ fun hΓ => ⟨hb.holds hΓ split hsplit, hΓ.2⟩
    exact .bind inferInstance fun x => inferInstance
  | none => infer_instance

omit [ShapesGoals text R] in
lemma made_heritageType :
    Made R heritageType (Demand.Met (.form .expressionWithTypeArguments)) := by
  refine .after fun start => .after fun e => ?_
  dsimp only
  split
  · refine .after fun split => ?_
    cases split
    exact .finish
  · refine .after fun b => .ite (.after fun args => .after fun split => ?_) (.after fun split => ?_)
    all_goals
      cases split
      exact .finish

instance : Shapes Γ text R q heritageClause := by
  refine .start fun q => .bind inferInstance fun opening => .pass fun _ => ?_
  refine .bind inferInstance fun start =>
    .made inferInstance (.separated made_heritageType) fun ts => ?_
  refine .use fun hts => ?_
  have hmade : Made R (listFrom start ts) fun l =>
      ∀ n ∈ l.nodes, Demand.Met (.form .expressionWithTypeArguments) n := fun _ => hts
  exact .made inferInstance hmade fun l => inferInstance

instance : Shapes Γ text R q heritageClause? := by unfold heritageClause?; infer_instance

instance : Shapes Γ text R q heritageClauses := by unfold heritageClauses; infer_instance

omit [ShapesGoals text R] in
lemma made_heritageClauses : Made R heritageClauses fun o =>
    ∀ n ∈ (o.map (·.nodes)).getD [], Demand.Met (.form .heritageClause) n := by
  have hclause : Made R heritageClause? fun o => ∀ n ∈ o, Demand.Met (.form .heritageClause) n := by
    refine .after fun b => .ite (.given ?_) .nothing
    exact .after fun _ => .after fun _ => .after fun _ => .after fun _ => .after fun _ =>
      .after fun _ => .finish
  refine .after fun start => (Made.many hclause).bind fun ns hns => ?_
  cases ns with
  | nil => exact .pure nofun
  | cons n ns => exact fun _ => hns

/-! ### Declarations -/

/-- The nodes in a list that may be there. -/
abbrev listed (o : Option NodeList) : List Node := (o.map (·.nodes)).getD []

/-- If all the modifiers are words, they stand before `front`, and `q` right behind two bytes of a
keyword there. -/
def Words (text : Source) (q : Nat) (mods : Option NodeList) : Prop :=
  Worded (listed mods) →
    ∃ front, q = front + 2 ∧ InTurn text front (listed mods)

omit [ShapesGoals text R] in
/-- A declaration with its modifiers before its keyword. -/
lemma finish_declaration {form : Form} {start : Nat} {mods : Option NodeList} {parts : List Part}
    {flags : NodeFlags} (hmods : From text start mods) (hparts : From text start parts)
    (hsuits : Suits (.form form) (.optional .modifier mods :: parts))
    (hlists : Lists (.form form) parts) (hrole : ∀ part ∈ parts, part.role? ≠ some .modifier)
    (hfront : isDeclaration (.form form) = true → Worded (listed mods) → ∃ front,
      InTurn text front (listed mods) ∧
      (∀ part ∈ parts, ∀ b ∈ part.bare, ∀ r, part.role? = some r →
        Ahead text front (b.withRole r)) ∧
      ∀ r l, Part.many r l ∈ parts → front + 2 ≤ l.pos)
    (hk : isBinder (.form form) = false := by rfl) :
    Reads Γ text R q (finish form start (.optional .modifier mods :: parts) flags)
      (From text start) := by
  have hunder : Part.under .modifier (.optional .modifier mods :: parts) = listed mods := by
    have hnone : Part.under .modifier parts = [] := by
      rw [List.eq_nil_iff_forall_not_mem]
      intro m hm
      obtain ⟨part, hpart, hr, -⟩ := mem_under hm
      exact hrole part hpart hr
    simp [hnone]
  refine Shapes.finish_whole (fun _ => ?_) (fun _ => hsuits) (fun r hr => ?_)
    (fun _ hd hw id stop => ?_) hk
  · have hall : Behind True text start (.optional .modifier mods :: parts) := by
      have : Behind True text start mods := ⟨fun _ => hmods⟩
      have : Behind True text start parts := ⟨fun _ => hparts⟩
      infer_instance
    exact hall.holds trivial
  · obtain ⟨l, hl⟩ := hlists r hr
    exact ⟨l, List.mem_cons_of_mem _ hl⟩
  · rw [hunder] at hw
    obtain ⟨front, hstop, hahead, hstart⟩ := hfront hd hw
    refine ⟨front, ?_, fun m hm hr => ?_, fun r l hr hl => ?_⟩
    · rw [Node.partsOf_ofParts, hunder]
      exact hstop.withRole .modifier
    · obtain ⟨part, hpart, b, hb, r, hrole', rfl⟩ := mem_children_ofParts hm
      rcases List.mem_cons.1 hpart with rfl | hpart
      · rw [Part.role?_optional] at hrole'
        obtain rfl := Option.some.inj hrole'
        exact absurd (by cases b; rfl) hr
      · exact hahead part hpart b hb r hrole'
    · obtain ⟨l', hl', hpos⟩ := list?_ofParts hl
      rw [← hpos]
      rcases List.mem_cons.1 hl' with hl' | hl'
      · cases mods with
        | none => cases hl'
        | some l => exact absurd (Part.many.inj hl').1 hr
      · exact hstart r l' hl'

omit [ShapesGoals text R] in
/-- A declaration with all of its parts behind its keyword. -/
lemma finish_behind {form : Form} {start : Nat} {mods : Option NodeList} {parts : List Part}
    {flags : NodeFlags} (hq : start ≤ q) (hmods : From text start mods)
    (hwords : isDeclaration (.form form) = true → Words text q mods) [hb : Behind Γ text q parts]
    [hs : Suited Γ (.form form) (.optional .modifier mods :: parts)]
    (hlists : Lists (.form form) parts)
    (hrole : ∀ part ∈ parts, part.role? ≠ some .modifier := by simp)
    (hk : isBinder (.form form) = false := by rfl) :
    Reads Γ text R q (finish form start (.optional .modifier mods :: parts) flags)
      (From text start) := by
  refine ⟨fun hΓ => ?_⟩
  have hparts := hb.holds hΓ
  refine (finish_declaration (Γ := True) hmods (hparts.mono hq) (hs.suits hΓ) hlists hrole
    (fun hd hw => ?_) hk).runs trivial
  obtain ⟨front, he, hstop⟩ := hwords hd hw
  refine ⟨front, hstop, fun part hpart b hbare r _ => .later ?_, fun r l hl => he ▸ (hparts _ hl).1⟩
  have hpos := (holds_bare (hparts part hpart) b hbare).1.pos
  rw [← he]
  cases b
  exact hpos

/-- The rule reads a keyword and then what `out` holds of. -/
def Keyed {β : Type} (Γ : Prop) (text : Source) (R : Runner) (q : Nat) (k : TokenKind) (p : Parse β)
    (out : β → Prop) : Prop := ∃ f, p = expect_ k >>= f ∧ Reads Γ text R q (f ()) out

omit [ShapesGoals text R] in
lemma Keyed.reads {β : Type} {k : TokenKind} {p : Parse β} {out : β → Prop}
    (h : Keyed Γ text R q k p out) : Reads Γ text R q p out := by
  obtain ⟨f, rfl, hf⟩ := h
  exact .pass fun _ => hf

/-- A class, as a declaration or an expression. -/
lemma classLike_keyed {form : Form} {start : Nat} {mods : Option NodeList} (hq : start ≤ q)
    (hmods : From text start mods) (hform : form = .classDeclaration ∨ form = .classExpression)
    (hwords : isDeclaration (.form form) = true → Words text q mods) :
    Keyed Γ text R q .classKw (classLike form start mods) (From text start) := by
  have hlists (members : NodeList) (parts : List Part) (hm : .many .member members ∈ parts) :
      Lists (.form form) parts := by
    intro r hr
    obtain rfl : r = .member := by
      rcases hform with rfl | rfl <;> cases r <;> first | rfl | cases hr
    exact ⟨members, hm⟩
  refine ⟨_, rfl, ?_⟩
  refine .pass fun named => .choose inferInstance inferInstance fun name => ?_
  refine .bind inferInstance fun types =>
    .made inferInstance made_heritageClauses fun heritage => ?_
  refine .pass fun _ => .bind inferInstance fun members => .pass fun _ => ?_
  rcases hform with rfl | rfl <;> exact finish_behind hq hmods hwords (hlists members _ (by simp))

instance {mods : Option NodeList} [hb : Behind Γ text q mods] :
    Shapes Γ text R q (classLike .classExpression q mods) :=
  ⟨fun hΓ => (classLike_keyed (Nat.le_refl q) (hb.holds hΓ) (.inr rfl) nofun).reads.runs hΓ⟩

end EstreeLint.Grammar
