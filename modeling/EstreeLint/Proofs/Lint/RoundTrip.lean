import EstreeLint.Lint.Report
import EstreeLint.Proofs.Census.Parents
import EstreeLint.Proofs.Estree.Statements

/-!
Reports that name a node by its lines and columns.

The bounds of every node are cuts of the text, so their positions lead back to them.
-/

namespace EstreeLint

open Estree

variable {text : Source} {p : Nat}

namespace Lint

/-- **A fix that a script asks for** has the offsets that it gives, if these are offsets at all. -/
theorem Fix.ofParts?_eq_some_iff {new : String} {start stop : Int} {f : Fix} :
    Fix.ofParts? new start stop = some f ↔ f.text = new ∧ (f.range.start : Int) = start ∧
      (f.range.stop : Int) = stop ∧ f.range.start < offsetLimit ∧ f.range.stop < offsetLimit := by
  rw [Fix.ofParts?]
  constructor
  · intro h
    obtain ⟨hbounds, h⟩ := Option.ite_none_right_eq_some.1 h
    obtain rfl := Option.some.inj h
    simp only [Bool.and_eq_true, decide_eq_true_eq] at hbounds
    refine ⟨rfl, ?_, ?_, ?_, ?_⟩ <;> dsimp only <;> omega
  · rintro ⟨rfl, rfl, rfl, hstart, hstop⟩
    rw [if_pos (by simp only [Bool.and_eq_true, decide_eq_true_eq]; omega)]
    rfl

namespace Report

/-- A cut is found again by its line and column. -/
lemma offsetOf_lineColumn (h : Text.IsCut text p) :
    offsetOf (LineMap.build text) text ((LineMap.build text).lineColumn text p) = p := by
  have hback : (LineMap.build text).offsetOf? text
      ⟨((LineMap.build text).positionOf text p).line + 1 - 1,
        ((LineMap.build text).positionOf text p).character⟩ = some p :=
    LineMap.offsetOf?_positionOf h
  rw [offsetOf, LineMap.lineColumn, hback, Option.getD_some]

lemma rangeIn_location {s : Span} (hstart : Text.IsCut text s.start)
    (hstop : Text.IsCut text s.stop) :
    rangeIn (LineMap.build text) text
      ⟨(LineMap.build text).lineColumn text s.start, (LineMap.build text).lineColumn text s.stop⟩ =
        ⟨s.start, s.stop⟩ := by
  rw [rangeIn, offsetOf_lineColumn hstart, offsetOf_lineColumn hstop, Nat.max_eq_left s.ordered]

/-- **A report with the location of a node names the bytes of the node.** -/
theorem diagnostic_of_node (name : String) (text : Source) (c : Conversion)
    (hclean : (SourceFile.parse name text).errors = [])
    (h : Conversion.ofFile (SourceFile.parse name text) = .ok c) :
    let file := SourceFile.parse name text
    ∀ m ∈ c.program.nodes, ∀ r : Report, r.location = m.loc →
      (r.toDiagnostic file.name file.text file.lines).range = ⟨m.range.start, m.range.stop⟩ := by
  intro file m hm r hlocation
  obtain ⟨-, hproper, -⟩ := accounted_ofFile (sitedIn_parse name text) h
  obtain ⟨hstart, hstop⟩ := (hproper m hm).bounds
  have hloc : m.loc = Convert.locate file m.range := (settled_ofFile h m hm).located
  change rangeIn file.lines file.text r.location = _
  rw [hlocation, hloc]
  exact rangeIn_location (hstart hclean) (hstop hclean)

/-- A character outside of the basic plane before a name, and line breaks of every kind. -/
def wideLines : Source :=
  "\x60".toList ++ Char.ofNat 0x1F600 :: "\x60.a?.b\r\n;\rd /* \u2028 */ + \u2029 (e, f)".toList

set_option maxRecDepth 10000 in
theorem diagnostic_of_wideLines :
    (SourceFile.parse "a.ts" wideLines).errors = [] ∧
      ∃ c, Conversion.ofFile (SourceFile.parse "a.ts" wideLines) = .ok c ∧
        let file := SourceFile.parse "a.ts" wideLines
        ∀ m ∈ c.program.nodes, ∀ r : Report, r.location = m.loc →
          (r.toDiagnostic file.name file.text file.lines).range =
            ⟨m.range.start, m.range.stop⟩ := by
  have hclean : (SourceFile.parse "a.ts" wideLines).errors = [] := by decide +kernel
  have hok : (Conversion.ofFile (SourceFile.parse "a.ts" wideLines)).isOk = true := by
    decide +kernel
  obtain ⟨c, h⟩ := Conversion.exists_of_isOk hok
  exact ⟨hclean, c, h, diagnostic_of_node _ _ c hclean h⟩

end Report

end Lint

end EstreeLint
