import EstreeLint.Lint.Fix
import EstreeLint.Lint.Host
import EstreeLint.Text.Printed

/-!
Tests of rules.

A valid case reports nothing. An invalid case reports the expected errors in order; its expected
output is the code after all fixes, and each expected suggestion is the code after that
suggestion alone. Lines and columns are counted from 1.
-/

namespace EstreeLint.Lint

structure ExpectedSuggestion where
  messageId : Option String
  output : String
deriving DecidableEq, Repr

/-- An expected error. What is not given is not compared. -/
structure ExpectedError where
  messageId : Option String := none
  message : Option String := none
  line : Option Nat := none
  column : Option Nat := none
  endLine : Option Nat := none
  endColumn : Option Nat := none
  suggestions : List ExpectedSuggestion := []
deriving DecidableEq, Repr

structure ValidCase where
  code : String
  fileName : Option String := none
deriving DecidableEq, Repr

structure InvalidCase where
  code : String
  fileName : Option String := none
  errors : List ExpectedError
  /-- The code after all fixes, or none if nothing is fixed. -/
  output : Option String := none
deriving DecidableEq, Repr

/-- What is compared of an error. -/
inductive Aspect where
  | messageId | message | line | column | endLine | endColumn | suggestionCount | suggestionId
  | suggestionOutput
deriving DecidableEq, Repr

namespace Aspect

def name : Aspect → String
  | .messageId => "message id"
  | .message => "message"
  | .line => "line"
  | .column => "column"
  | .endLine => "end line"
  | .endColumn => "end column"
  | .suggestionCount => "suggestion count"
  | .suggestionId => "suggestion id"
  | .suggestionOutput => "suggestion output"

end Aspect

/-- How a case differs from what is expected. -/
inductive Mismatch where
  | lint (cause : LintError)
  /-- Errors where none are expected. -/
  | unwanted (found : List Diagnostic)
  | count (expected : Nat) (found : List Diagnostic)
  | output (expected actual : String)
  | unwantedFix (actual : String)
  /-- An aspect of the error at a position, counted from 1. -/
  | aspect (position : Nat) (what : Aspect) (expected actual : String)
deriving DecidableEq, Repr

namespace Mismatch

def describe (d : Diagnostic) : String :=
  "[" ++ d.rule ++ "] " ++ d.message.description ++ " (" ++ toString d.range.start ++ ".." ++
    toString d.range.stop ++ ")"

def describeAll (ds : List Diagnostic) : String := String.intercalate "; " (ds.map describe)

def quote (s : String) : String := Text.quoted s.toList

def message : Mismatch → String
  | .lint cause => cause.message
  | .unwanted found =>
    "expected no errors, got " ++ toString found.length ++ ": " ++ describeAll found
  | .count expected found =>
    "expected " ++ toString expected ++ " error(s), got " ++ toString found.length ++ ": " ++
      describeAll found
  | .output expected actual =>
    "output mismatch\n  expected: " ++ quote expected ++ "\n    actual: " ++ quote actual
  | .unwantedFix actual => "unexpected autofix producing " ++ quote actual
  | .aspect position what expected actual =>
    "error " ++ toString position ++ ": " ++ what.name ++ " should be " ++ expected ++ ", got " ++
      actual

end Mismatch

inductive CaseKind where
  | valid | invalid
deriving DecidableEq, Repr

namespace CaseKind

def name : CaseKind → String
  | .valid => "valid"
  | .invalid => "invalid"

end CaseKind

structure CaseFailure where
  kind : CaseKind
  index : Nat
  code : String
  reason : Mismatch
deriving DecidableEq, Repr

namespace CaseFailure

def message (f : CaseFailure) : String :=
  f.kind.name ++ "-" ++ toString f.index ++ ": " ++ f.reason.message ++ "\n  code: " ++ f.code

end CaseFailure

namespace RuleTest

/-- The file of a case. -/
def fileOf (code : String) (name : Option String) : SourceFile :=
  SourceFile.parse (name.getD "file.ts") code.toList

/-- A mismatch unless what is found is what is expected, if anything is. -/
def compare (position : Nat) (what : Aspect) (expected : Option String) (actual : String) :
    List Mismatch :=
  match expected with
  | some e => if e == actual then [] else [.aspect position what e actual]
  | none => []

def compareNumber (position : Nat) (what : Aspect) (expected : Option Nat) (actual : Nat) :
    List Mismatch :=
  compare position what (expected.map toString) (toString actual)

/-- Compares a suggestion. Its output is left alone if it has another message. -/
def checkSuggestion (code : Source) (position : Nat) (expected : ExpectedSuggestion)
    (found : Suggestion) : List Mismatch :=
  match compare position .suggestionId expected.messageId found.message.id with
  | [] =>
    let output := String.ofList (Fixed.ofFixes code found.fixes).text
    if output == expected.output then []
    else
      [.aspect position .suggestionOutput (Mismatch.quote expected.output)
        (Mismatch.quote output)]
  | mismatches => mismatches

def checkSuggestions (code : Source) (position : Nat) (expected : List ExpectedSuggestion)
    (found : List Suggestion) : List Mismatch :=
  if expected.length == found.length then
    (expected.zip found).flatMap fun (e, s) => checkSuggestion code position e s
  else
    [.aspect position .suggestionCount (toString expected.length) (toString found.length)]

def checkError (file : SourceFile) (position : Nat) (expected : ExpectedError)
    (found : Diagnostic) : List Mismatch :=
  let start := file.lines.positionOf file.text found.range.start
  let stop := file.lines.positionOf file.text found.range.stop
  compare position .messageId expected.messageId found.message.id ++
    compare position .message expected.message found.message.description ++
    compareNumber position .line expected.line (start.line + 1) ++
    compareNumber position .column expected.column (start.character + 1) ++
    compareNumber position .endLine expected.endLine (stop.line + 1) ++
    compareNumber position .endColumn expected.endColumn (stop.character + 1) ++
    checkSuggestions file.text position expected.suggestions found.suggestions

/-- Compares the code after all fixes. -/
def checkOutput (expected : Option String) (fixed : Fixed) : List Mismatch :=
  let actual := String.ofList fixed.text
  match expected with
  | some e => if e == actual then [] else [.output e actual]
  | none => if fixed.anyApplied then [.unwantedFix actual] else []

/-- Compares the errors one by one, from a position on. -/
def checkErrors (file : SourceFile) : (position : Nat) → List ExpectedError → List Diagnostic →
    List Mismatch
  | position, e :: es, d :: ds =>
    checkError file position e d ++ checkErrors file (position + 1) es ds
  | _, _, _ => []

/-- How the diagnostics of an invalid case differ from its expected errors. If there are more or
fewer, nothing else is compared. -/
def checkInvalid (c : InvalidCase) (file : SourceFile) (found : List Diagnostic) :
    List Mismatch :=
  if found.length != c.errors.length then [.count c.errors.length found]
  else
    checkOutput c.output (Fixed.ofDiagnostics file.text found) ++
      checkErrors file 1 c.errors found

def runValid (host : Host) (c : ValidCase) : List Mismatch :=
  match lintFile host (fileOf c.code c.fileName) with
  | .ok [] => []
  | .ok found => [.unwanted found]
  | .error e => [.lint e]

def runInvalid (host : Host) (c : InvalidCase) : List Mismatch :=
  let file := fileOf c.code c.fileName
  match lintFile host file with
  | .ok found => checkInvalid c file found
  | .error e => [.lint e]

/-- The failures of all cases, the valid ones first. -/
def run (host : Host) (valid : List ValidCase) (invalid : List InvalidCase) :
    List CaseFailure :=
  (valid.zipIdx.flatMap fun (c, index) =>
      (runValid host c).map fun reason => { kind := .valid, index, code := c.code, reason }) ++
    invalid.zipIdx.flatMap fun (c, index) =>
      (runInvalid host c).map fun reason => { kind := .invalid, index, code := c.code, reason }

end RuleTest

end EstreeLint.Lint
