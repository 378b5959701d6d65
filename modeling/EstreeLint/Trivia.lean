import EstreeLint.Text.Basic
import EstreeLint.Text.Blank

/-!
Trivia: white space, line breaks, comments, and the `#!` line that may open a file.
-/

namespace EstreeLint

/-- A comment, delimiters included. -/
structure CommentRange where
  pos : Nat
  stop : Nat
  isBlock : Bool
  /-- A line break follows it. -/
  endsLine : Bool
deriving DecidableEq, Repr

namespace CommentRange

def text (c : CommentRange) (source : Source) : List Char := Text.slice source c.pos c.stop

/-- A list without the given ending, if it has it. -/
def withoutEnding (ending cs : List Char) : List Char :=
  if ending.isSuffixOf cs then cs.take (cs.length - ending.length) else cs

/-- The comment without its delimiters. -/
def value (c : CommentRange) (source : Source) : List Char :=
  let body := (c.text source).drop 2
  if c.isBlock then withoutEnding ['*', '/'] body else body

end CommentRange

namespace Trivia

/-- Bytes of a `#!` line at the start of a file, without the line break. -/
def shebang? : Source → Option Nat
  | '#' :: '!' :: cs => some (2 + Text.bytes (cs.takeWhile (!Text.isLineBreak ·)))
  | _ => none

/-- The text of a line comment: up to a line break, and starting within `budget` bytes. -/
def lineBody : Nat → List Char → List Char
  | 0, _ => []
  | _, [] => []
  | n + 1, c :: cs => if Text.isLineBreak c then [] else c :: lineBody (n + 1 - c.utf8Size) cs

/-- The text of a block comment whose closing mark lies within `budget` bytes. -/
def blockBody? : Nat → List Char → Option (List Char)
  | _, [] => none
  | budget, c :: cs =>
    if c == '*' && cs.head? == some '/' then
      if 2 ≤ budget then some [] else none
    else if c.utf8Size < budget then (blockBody? (budget - c.utf8Size) cs).map (c :: ·)
    else none

/-- Comments in the trivia that begins at byte `pos`, and where that trivia stops. The scan
stops at `limit` or before the first character that is not trivia. -/
def scan (limit : Nat) (pos : Nat) (cs : List Char) : List CommentRange × Nat :=
  match cs with
  | [] => ([], min pos limit)
  | c :: cs =>
    if limit ≤ pos then ([], limit)
    else if Text.isBlank c || Text.isLineBreak c then scan limit (pos + c.utf8Size) cs
    else if c == '/' && pos + 1 < limit then
      match cs with
      | '/' :: cs =>
        let body := lineBody (limit - (pos + 2)) cs
        let stop := pos + 2 + Text.bytes body
        let (rest, last) := scan limit stop (cs.drop body.length)
        (⟨pos, stop, false, stop < limit⟩ :: rest, last)
      | '*' :: cs =>
        match blockBody? (limit - (pos + 2)) cs with
        | some body =>
          let stop := pos + 2 + Text.bytes body + 2
          let after := cs.drop (body.length + 2)
          let (rest, last) := scan limit stop after
          (⟨pos, stop, true, after.head?.any Text.isLineBreak⟩ :: rest, last)
        | none =>
          let after := Text.suffixAt cs (limit - (pos + 2))
          ([⟨pos, limit, true, after.head?.any Text.isLineBreak⟩], limit)
      | _ => ([], pos)
    else ([], pos)
termination_by cs.length
decreasing_by all_goals simp_wf; try omega

/-- The offset of the first character at or after `pos` that is not trivia. -/
def skip (source : Source) (pos : Nat) : Nat :=
  let pos := if pos = 0 then (shebang? source).getD 0 else pos
  (scan (Text.bytes source) pos (Text.suffixAt source pos)).2

/-- The comments of the trivia from `start`, up to `stop` or the first other character. -/
def commentsIn (source : Source) (start stop : Nat) : List CommentRange :=
  (scan (min stop (Text.bytes source)) start (Text.suffixAt source start)).1

/-- The comments before the first token of a file. -/
def leadingComments (source : Source) : List CommentRange :=
  commentsIn source ((shebang? source).getD 0) (Text.bytes source)

end Trivia

end EstreeLint
