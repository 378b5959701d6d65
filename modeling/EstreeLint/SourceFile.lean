import EstreeLint.Grammar.Statement
import EstreeLint.LineMap
import EstreeLint.Syntax.Arena

/-!
A source file: its text with the tree, the errors and the lines of it.
-/

namespace EstreeLint

namespace Variant

/-- The letters of a file name that tell its extension, in lower case. -/
def lowered (name : String) : List Char := name.toList.map Char.toLower

/-- Elements are allowed in files of every extension but these. -/
def ofFileName (name : String) : Variant :=
  if [".ts", ".mts", ".cts"].any fun ending => ending.toList.isSuffixOf (lowered name) then
    .standard
  else .jsx

end Variant

structure SourceFile where
  name : String
  text : Source
  variant : Variant
  arena : Arena
  root : Node
  errors : List SyntaxError
  lines : LineMap

namespace SourceFile

/-- Reads a file. Errors do not stop it: the tree covers the whole text. -/
def parse (name : String) (text : Source) : SourceFile :=
  let variant := Variant.ofFileName name
  let (root, state) := Grammar.parseSource text variant
  { name, text, variant, root,
    arena := Arena.bindParents ⟨state.arena, #[]⟩ root
    errors := state.errors.reverse
    lines := LineMap.build text }

/-- Where the first token of a node starts. Text between tags is kept whole. -/
def startOf (file : SourceFile) (n : Node) : Nat :=
  if n.isToken .jsxText || n.pos == n.stop then n.pos
  else min (Trivia.skip file.text n.pos) n.stop

def statements (file : SourceFile) : List Node := file.root.partsOf .statement

/-- A statement that makes its file a module. -/
def isModuleItem (n : Node) : Bool :=
  match n.kind with
  | .form .importDeclaration | .form .exportDeclaration | .form .exportAssignment => true
  | .form .importEqualsDeclaration =>
    (n.part? .moduleReference).any (·.isForm .externalModuleReference)
  | _ => n.children.any (·.isToken .exportKw)

/-- The file imports or exports at top level, or asks for `import.meta`. -/
def isModule (file : SourceFile) : Bool :=
  file.statements.any isModuleItem ||
    file.root.walk.any fun n => n.isForm .metaProperty && n.word? == some .importKw

end SourceFile

end EstreeLint
