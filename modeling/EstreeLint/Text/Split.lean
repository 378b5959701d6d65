import EstreeLint.Text.Blank

/-!
Text cut into pieces.
-/

namespace EstreeLint.Text

/-- The pieces between the characters of a class, which belong to no piece. -/
def split (p : Char → Bool) : List Char → List (List Char)
  | [] => [[]]
  | c :: cs =>
    match split p cs with
    | [] => [[]]
    | piece :: pieces => if p c then [] :: piece :: pieces else (c :: piece) :: pieces

/-- The words that white space divides. -/
def words (cs : List Char) : List (List Char) := (split isWhiteSpace cs).filter (!·.isEmpty)

/-- Letters of ASCII in lower case. -/
def lowered (cs : List Char) : List Char := cs.map Char.toLower

end EstreeLint.Text
