import EstreeLint.Estree.Token
import EstreeLint.Proofs.Estree.Within
import EstreeLint.Proofs.Progress.Termination

/-!
Reading a file comes to an end: its parse, the extraction of its tokens and its conversion.
-/

namespace EstreeLint

variable {text : Source} {s : Scanner}

/-! ### Text between the leaves -/

namespace Estree

open Scanner

/-- A gap is read in as many steps as it has bytes. -/
lemma tokensBefore_eq (he : ValidEscapes text) (hs : s.cursor.rest <:+ text)
    {limit fuel fuel' : Nat} (h : s.unread < fuel) (h' : s.unread < fuel') :
    tokensBefore limit fuel s = tokensBefore limit fuel' s := by
  induction fuel generalizing s fuel' with
  | zero => omega
  | succ fuel ih =>
    obtain ⟨fuel', rfl⟩ : ∃ k, fuel' = k + 1 := ⟨fuel' - 1, by omega⟩
    have hfrom := scan_from he hs
    unfold tokensBefore
    dsimp only
    split
    · rfl
    · rename_i hgo
      have hlt := hfrom.unread_lt (by simp_all)
      have hrest := hfrom.suffix.trans hs
      have hd : s.scan.unread < fuel := by omega
      have hd' : s.scan.unread < fuel' := by omega
      rw [ih hrest hd hd']

/-- A token is searched in as many steps as the text has bytes. -/
lemma findAmong_eq (he : ValidEscapes text) (hs : s.cursor.rest <:+ text) {wanted : TokenKind}
    {fuel fuel' : Nat} (h : s.unread < fuel) (h' : s.unread < fuel') :
    Convert.findAmong wanted fuel s = Convert.findAmong wanted fuel' s := by
  induction fuel generalizing s fuel' with
  | zero => omega
  | succ fuel ih =>
    obtain ⟨fuel', rfl⟩ : ∃ k, fuel' = k + 1 := ⟨fuel' - 1, by omega⟩
    have hfrom := scan_from he hs
    unfold Convert.findAmong
    dsimp only
    split
    · rfl
    · rename_i hgo
      have hlt := hfrom.unread_lt (by simpa using hgo)
      have hrest := hfrom.suffix.trans hs
      have hd : s.scan.unread < fuel := by omega
      have hd' : s.scan.unread < fuel' := by omega
      rw [ih hrest hd hd']

lemma suffix_reset (text : Source) (variant : Variant) (pos : Nat) :
    ((Scanner.ofSource text variant true).reset pos).cursor.rest <:+ text := suffixAt_suffix text _

end Estree

/-! ### Files -/

namespace SourceFile

open Grammar Estree

/-- Reading a file comes to an end. Wherever a recursion of it is bounded, the bound makes no
difference, as each step of the recursion goes forward. -/
structure Terminates (name : String) (text : Source) : Prop where
  /-- The parse is the same with more nested rules and more repetitions, and whatever is beyond
  them. -/
  parse (beyond : Runner) (depth limit : Nat) : beyond.remembers = true →
    ample (Text.bytes text) ≤ depth → Text.bytes text + 2 ≤ limit →
    sourceFile.run (beyond.above depth)
        { State.ofSource text (Variant.ofFileName name) with limit } =
      ((parseSource text (Variant.ofFileName name)).1,
        { (parseSource text (Variant.ofFileName name)).2 with limit })
  /-- A rule only goes on to goals at later tokens, or at the same token with lower ranks. -/
  recursion (beyond : Runner) (depth : Nat) : ample (Text.bytes text) ≤ depth →
    ∀ (g : Goal) (s : State) (R : Runner), s.scanner.Sound text →
      Text.bytes text + 2 ≤ s.limit → R.remembers = beyond.remembers →
      (∀ (g' : Goal) (s' : State), s'.scanner.Sound text → g.After s g' s' →
        R.run g' s' = (beyond.above depth).run g' s') →
      (rule g).run R s = (rule g).run (beyond.above depth) s
  /-- So a cycle of the recursion moves on in the text. -/
  cycles {g : Goal} {s s' : State} :
    Relation.TransGen (fun x y : Goal × State => x.1.After x.2 y.1 y.2) (g, s) (g, s') →
      s.scanner.tokenStart < s'.scanner.tokenStart
  loops (beyond : Runner) (depth : Nat) : ample (Text.bytes text) ≤ depth →
    LoopsAdvance text (beyond.above depth)
  /-- A scan from any place of the text goes forward. -/
  scans (s : Scanner) : s.cursor.rest <:+ text → Scanner.From s.cursor s.scan
  gaps (start stop fuel : Nat) : Text.bytes text < fuel →
    tokensBefore stop fuel ((Scanner.ofSource text (Variant.ofFileName name) true).reset start) =
      tokensIn (SourceFile.parse name text) start stop
  searches (pos fuel : Nat) (wanted : TokenKind) : Text.bytes text < fuel →
    let s := (Scanner.ofSource text (Variant.ofFileName name) true).reset pos
    Convert.findAmong wanted fuel s = Convert.findAmong wanted (Text.bytes text + 1) s
  /-- The conversion goes down the tree. -/
  conversion (beyond : Estree.Place → Node → Build EsNode) (depth : Nat) :
    let file := SourceFile.parse name text
    file.root.height ≤ depth →
      Convert.program file.root
          { fileEnv file with recur := Convert.nodeAbove beyond file depth } =
        Convert.program file.root (fileEnv file)
  innerNames (n : Node) (depth : Nat) : n.height ≤ depth →
    Convert.innerDeclarations depth n = Convert.innerDeclarations n.height n

/-- **Every file is read to its end**, also if it is malformed, as long as its escapes are valid. -/
theorem terminates (name : String) (text : Source) (he : ValidEscapes text) :
    Terminates name text := by
  have hunread (pos : Nat) :
      ((Scanner.ofSource text (Variant.ofFileName name) true).reset pos).unread ≤
        Text.bytes text := Scanner.bytes_le_of_suffix (suffix_reset text _ pos)
  exact
    { parse := fun beyond depth limit hremembers hd hlimit => by
        rw [parseSource_above he _ hd hlimit, hremembers]
      recursion := fun beyond depth hd g s R hs hlimit hremembers h =>
        rule_run_eq he hd hs hlimit hremembers h
      cycles := Goal.After.moves
      loops := fun beyond depth hd => loops_advance he beyond hd
      scans := fun s hs => Scanner.scan_from he hs
      gaps := fun start stop fuel hfuel =>
        tokensBefore_eq he (suffix_reset text _ start) (Nat.lt_of_le_of_lt (hunread start) hfuel)
          (Nat.lt_succ_of_le (hunread start))
      searches := fun pos fuel wanted hfuel =>
        findAmong_eq he (suffix_reset text _ pos) (Nat.lt_of_le_of_lt (hunread pos) hfuel)
          (Nat.lt_succ_of_le (hunread pos))
      conversion := fun beyond depth hdepth => program_above beyond hdepth
      innerNames := fun n depth hdepth =>
        Convert.innerDeclarations_of_height hdepth (Nat.le_refl _) }

/-- A call without its closing parenthesis. -/
theorem unclosedCall_terminates :
    ValidEscapes "f(".toList ∧ Terminates "unclosed.ts" "f(".toList :=
  have he : ValidEscapes "f(".toList := .of_not_mem (by decide)
  ⟨he, terminates "unclosed.ts" "f(".toList he⟩

end SourceFile

end EstreeLint
