import EstreeLint.Lint.Diagnostic
import EstreeLint.SourceFile

/-!
Diagnostics as text: a line with the place, the rule and the message, and below it the line of
the source with the range underlined.
-/

namespace EstreeLint.Lint

inductive Style where
  | cyan | yellow | dimmed | red
deriving DecidableEq, Repr

namespace Style

/-- The sequence that turns all styles off. -/
def off : List Char := "\x1b[0m".toList

/-- The sequence that turns a style on. -/
def on : Style → List Char
  | .cyan => "\x1b[36m".toList
  | .yellow => "\x1b[33m".toList
  | .dimmed => "\x1b[2m".toList
  | .red => "\x1b[31m".toList

/-- Turns a style on again wherever a text turns it off. The number says how many characters of
such a sequence are still to be passed over. -/
def restored (style : Style) : Nat → List Char → List Char
  | _, [] => []
  | 0, c :: cs =>
    if off.isPrefixOf (c :: cs) then c :: restored style (off.length - 1) cs
    else c :: restored style 0 cs
  | 1, c :: cs => c :: (style.on ++ restored style 0 cs)
  | n + 2, c :: cs => c :: restored style (n + 1) cs

/-- A text in a style. -/
def apply (style : Style) (text : List Char) : List Char :=
  style.on ++ restored style 0 text ++ off

end Style

/-- How diagnostics are shown. -/
structure Format where
  color : Bool
  snippets : Bool := true
deriving DecidableEq, Repr

namespace Snippet

/-- Columns that a character takes when it is shown. -/
def width (c : Char) : Nat := if c == '\t' then 4 else 1

/-- A line as it is shown: a tab is four spaces. -/
def shownLine (line : List Char) : List Char :=
  line.flatMap fun c => if c == '\t' then List.replicate 4 ' ' else [c]

/-- The characters of the line that starts at an offset, up to its end. -/
def lineAt (text : Source) (start : Nat) : List Char :=
  (Text.suffixAt text start).takeWhile fun c => c != '\n' && c != '\r'

/-- Marks under the characters of a line from `start` to `stop`, and spaces before them. -/
def marks (start stop : Nat) : (offset : Nat) → List Char → List Char
  | _, [] => []
  | offset, c :: cs =>
    if stop ≤ offset then []
    else
      List.replicate (width c) (if offset < start then ' ' else '~') ++
        marks start stop (offset + c.utf8Size) cs

/-- The marks under a line that starts at `lineStart`, at least one. -/
def underline (lineStart : Nat) (line : List Char) (start stop : Nat) : List Char :=
  let lineStop := lineStart + Text.bytes line
  let start := min (max start lineStart) lineStop
  let stop := min (max stop start) lineStop
  let under := marks start stop lineStart line
  if under.contains '~' then under else under ++ ['~']

end Snippet

namespace Format

def styled (f : Format) (style : Style) (text : List Char) : List Char :=
  if f.color then style.apply text else text

/-- A number on the right of three columns. -/
def lineNumber (n : Nat) : List Char :=
  let digits := Nat.toDigits 10 n
  List.replicate (3 - digits.length) ' ' ++ digits

/-- The line where a range starts, with the part of the range on it underlined. -/
def snippet (f : Format) (file : SourceFile) (r : TextRange) : List Char :=
  let line := file.lines.lineOf r.start
  match file.lines.lineStart? line with
  | none => []
  | some start =>
    let shown := Snippet.lineAt file.text start
    let under := Snippet.underline start shown r.start r.stop
    "\n  ".toList ++ lineNumber (line + 1) ++ "   ".toList ++ Snippet.shownLine shown ++
      "\n        ".toList ++ f.styled .red under

/-- A place in a file, line and column from 1. -/
def location (f : Format) (file : SourceFile) (offset : Nat) : List Char :=
  let p := file.lines.positionOf file.text offset
  f.styled .cyan <|
    file.name.toList ++ ':' :: Nat.toDigits 10 (p.line + 1) ++ ':' ::
      Nat.toDigits 10 (p.character + 1)

def diagnostic (f : Format) (file : SourceFile) (d : Diagnostic) : List Char :=
  f.location file d.range.start ++ ' ' :: f.styled .yellow d.rule.toList ++
    ' ' :: d.message.description.toList ++
    (if d.hasFixes then ' ' :: f.styled .dimmed "(fixable)".toList else []) ++
    (if f.snippets then f.snippet file d.range else [])

/-- The diagnostics of a file, one below the other. -/
def render (f : Format) (file : SourceFile) (ds : List Diagnostic) : String :=
  String.intercalate "\n" (ds.map fun d => String.ofList (f.diagnostic file d))

end Format

end EstreeLint.Lint
