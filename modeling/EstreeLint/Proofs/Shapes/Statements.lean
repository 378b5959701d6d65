import EstreeLint.Proofs.Shapes.Declarations
import EstreeLint.Proofs.Shapes.Expressions

/-!
What the rules for statements shape, and the parse as a whole.
-/

namespace EstreeLint.Grammar

open Parse

set_option synthInstance.maxSize 20000

variable {Γ : Prop} {text : Source} {R : Runner} {q : Nat} [ShapesGoals text R]

/-! ### Statements -/

instance : Shapes Γ text R q expressionOrLabeled := .start fun _ => inferInstance

instance : Shapes Γ text R q condition := by
  unfold condition
  infer_instance

instance : Shapes Γ text R q ifStatement := by
  refine .start fun q => .pass fun _ => .bind inferInstance fun e => ?_
  refine .bind inferInstance fun whenTrue => .pass fun b => ?_
  exact .choose inferInstance inferInstance fun whenFalse => inferInstance

instance : Shapes Γ text R q doStatement := .start fun _ => inferInstance

instance : Shapes Γ text R q whileStatement := .start fun _ => inferInstance

instance (stops : List TokenKind) : Shapes Γ text R q (expressionUnless stops) := by
  unfold expressionUnless
  infer_instance

section Loops

variable {await head : Option Node} [Behind Γ text q await] [Behind Γ text q head]

instance (isOf : Bool) : Shapes Γ text R q (forEach q await head isOf) := by
  refine .choose inferInstance inferInstance fun e => .pass fun _ =>
    .bind inferInstance fun body => ?_
  cases isOf with
  | true => exact inferInstanceAs (Shapes _ text R q (finish .forOfStatement q _))
  | false => exact inferInstanceAs (Shapes _ text R q (finish .forInStatement q _))

instance : Shapes Γ text R q (forClauses q head) := by
  unfold forClauses
  infer_instance

instance : Shapes Γ text R q (forRest q await head) := by
  unfold forRest
  infer_instance

end Loops

instance : Shapes Γ text R q forHead :=
  .pass fun _ => Shapes.inContext (.ite (fun _ => inferInstance) fun _ => inferInstance)

instance : Shapes Γ text R q forStatement := .start fun _ => inferInstance

omit [ShapesGoals text R] in
instance : Shapes Γ text R q (jump .continueStatement) := .start fun _ => inferInstance

omit [ShapesGoals text R] in
instance : Shapes Γ text R q (jump .breakStatement) := .start fun _ => inferInstance

instance : Shapes Γ text R q returnStatement := .start fun _ => inferInstance

instance : Shapes Γ text R q withStatement := .start fun _ => inferInstance

instance : Shapes Γ text R q clause := by
  unfold clause clauseBody
  exact .start fun _ => inferInstance

instance : Shapes Γ text R q caseBlock := .start fun _ => inferInstance

instance : Shapes Γ text R q switchStatement := .start fun _ => inferInstance

instance : Shapes Γ text R q throwStatement := .start fun _ => inferInstance

instance : Shapes Γ text R q caughtVariable := .start fun _ => inferInstance

instance : Shapes Γ text R q catchClause := .start fun _ => inferInstance

instance : Shapes Γ text R q tryStatement := .start fun _ => inferInstance

instance : Shapes Γ text R q anyStatement := by
  have hnone (q : Nat) : From text q (none : Option NodeList) := fun _ => nofun
  have hwords (q : Nat) : Words text q none := fun hw => absurd rfl hw.1
  refine .start fun q => .pass fun k => ?_
  split
  · infer_instance
  · infer_instance
  · infer_instance
  iterate 3 exact .pass fun _ => .ite (fun _ => inferInstance) fun _ => inferInstance
  · have hkeyed := functionDeclaration_keyed (R := R) (Nat.le_refl q) (hnone q) (hwords q)
    exact hkeyed.reads.known fun _ => trivial
  · exact (classLike_keyed (Nat.le_refl q) (hnone q) (.inl rfl) fun _ => hwords q).reads
  iterate 13 infer_instance
  · exact .pass fun k => .ite (fun _ => inferInstance) fun _ => .pass fun _ =>
      .ite (fun _ => inferInstance) fun _ => inferInstance
  iterate 17 exact .pass fun _ => .ite (fun _ => inferInstance) fun _ => inferInstance
  · infer_instance

instance : Shapes Γ text R q statement := by
  unfold statement
  infer_instance

/-! ### The parse as a whole -/

/-- Every rule shapes its node where the rules in it do. -/
theorem rule_shapes (g : Goal) : Shapes True text R q (rule g) := by
  cases g <;> unfold rule <;> infer_instance

omit [ShapesGoals text R] in
theorem shapesGoals_runner (fuel : Nat) (remembers : Bool) :
    ShapesGoals text (runner fuel remembers) := by
  induction fuel with
  | zero =>
    have h (q : Nat) : Shapes True text .idle q tooDeep := .pass fun _ => inferInstance
    exact ⟨fun q _ => ⟨(h q).runs⟩⟩
  | succ fuel ih => exact ⟨fun q g => ⟨(rule_shapes (R := runner fuel remembers) g).runs⟩⟩

lemma sourceFile_shapes : Shapes True text R 0 sourceFile := by
  refine .bind inferInstance fun statements => .pass fun s => ?_
  dsimp only
  have hlast : Shapes (From text 0 statements ∧ True) text R 0
      (node (.token .endOfFile) s.scanner.fullStart s.scanner.tokenEnd) :=
    Shapes.node_at fun _ => Nat.zero_le _
  exact .bind (inferInstanceAs (Shapes _ text R 0 (discard _))) fun _ => inferInstance

omit [ShapesGoals text R] in
/-- **The tree of a text is shaped**, whatever the text is. -/
theorem parseSource_shaped (source : Source) (variant : Variant) (remembers : Bool) :
    Shaped source (parseSource source variant remembers).1 := by
  have hclear : (State.ofSource source variant).scanner.Clear source :=
    (Scanner.scan_clear (σ := .ofSource source variant true) rfl rfl (Cursor.cuts_front source)).1
  have hgoals : ShapesGoals source (runner (fuelFor (Text.bytes source)) remembers) :=
    shapesGoals_runner _ remembers
  exact (sourceFile_shapes.runs trivial _ hclear (Nat.zero_le _)).2.2.1.shaped

end EstreeLint.Grammar
