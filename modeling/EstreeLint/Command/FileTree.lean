import EstreeLint.Command.Path
import EstreeLint.Tree

/-!
Directories with the files below them, and the choice of the files to lint.

A file that is named is taken, whatever its extension. In a directory, files with the right
extensions are taken, and entries whose names start with a dot are passed over, as is
`node_modules`.
-/

namespace EstreeLint.Command

/-- A file with its text, or a directory. -/
structure Entry where
  name : List Char
  content : Option String
deriving DecidableEq, Repr

abbrev FileTree := Tree Entry

namespace FileTree

def file (name : List Char) (content : String) : FileTree := .node ⟨name, some content⟩ []

def directory (name : List Char) (entries : List FileTree) : FileTree :=
  .node ⟨name, none⟩ entries

def isDirectory (t : FileTree) : Bool := t.label.content.isNone

/-- Entries with one more at the end of the given names: a file if there is a text for it, and
otherwise a directory. A file takes the place of what has its name; a directory leaves it. -/
def insert (content : Option String) : List (List Char) → List FileTree → List FileTree
  | [], entries => entries
  | name :: rest, entries =>
    if entries.any (·.label.name == name) then
      entries.map fun t =>
        if t.label.name != name then t
        else if rest.isEmpty then content.elim t (file name)
        else .node t.label (insert content rest t.children)
    else if rest.isEmpty then entries ++ [.node ⟨name, content⟩ []]
    else entries ++ [directory name (insert content rest [])]

/-- Entries after a file has been written, with the directories that its path passes. -/
def write (entries : List FileTree) (path : List Char) (content : String) : List FileTree :=
  let places := Path.places [] (Path.components path)
  let opened := places.dropLast.foldl (fun entries place => insert none place entries) entries
  insert (some content) (places.getLastD []) opened

/-- The directory with the given files below it, written one after the other. -/
def ofFiles (files : List (String × String)) : FileTree :=
  directory [] (files.foldl (fun entries (path, content) => write entries path.toList content) [])

/-- Follows the pieces of a path from a directory below `above`, the nearest first. -/
def follow (above : List FileTree) (here : FileTree) : List (List Char) → Option FileTree
  | [] => some here
  | piece :: rest =>
    if !here.isDirectory then none
    else if piece.isEmpty || piece == ['.'] then follow above here rest
    else if piece == ['.', '.'] then
      match above with
      | [] => none
      | up :: above => follow above up rest
    else
      match here.children.find? (·.label.name == piece) with
      | some t => follow (here :: above) t rest
      | none => none

/-- What a path leads to from a directory. -/
def find? (root : FileTree) (path : List Char) : Option FileTree :=
  if path.isEmpty || path.head? == some '/' then none
  else follow [] root (Text.split (· == '/') path)

/-- Entries that are passed over in a directory. -/
def isSkipped (name : List Char) : Bool :=
  name.head? == some '.' || name == "node_modules".toList

mutual

/-- The files to lint in a tree at a path, with their texts. -/
def lintable (path : List Char) : FileTree → List (List Char × String)
  | .node entry entries =>
    match entry.content with
    | some content => if Path.isLintable path then [(path, content)] else []
    | none => lintableIn path entries

/-- The files to lint among the entries of a directory. -/
def lintableIn (path : List Char) : List FileTree → List (List Char × String)
  | [] => []
  | t :: ts =>
    (if isSkipped t.label.name then [] else lintable (Path.join path t.label.name) t) ++
      lintableIn path ts

end

/-- The files that a path names or that lie below it. -/
def filesAt (path : List Char) (t : FileTree) : List (List Char × String) :=
  match t.label.content with
  | some content => [(path, content)]
  | none => lintableIn path t.children

/-- Drops each file with the components of the one kept before. -/
def withoutRepeatsOf (path : List Component) :
    List (List Char × String) → List (List Char × String)
  | [] => []
  | f :: fs =>
    if Path.components f.1 = path then withoutRepeatsOf path fs
    else f :: withoutRepeatsOf (Path.components f.1) fs

def withoutRepeats : List (List Char × String) → List (List Char × String)
  | [] => []
  | f :: fs => f :: withoutRepeatsOf (Path.components f.1) fs

/-- The files to lint for some paths, in the order of their components and each once. `lookup`
says what a path leads to. A path that leads nowhere is an error. -/
def collect (lookup : List Char → Option FileTree) (paths : List (List Char)) :
    Except String (List (List Char × String)) := do
  let found ← paths.mapM fun path =>
    match lookup path with
    | some t => .ok (filesAt path t)
    | none => .error ("no such file or directory: " ++ String.ofList path)
  return withoutRepeats <| found.flatten.mergeSort fun f g =>
    (Path.compare (Path.components f.1) (Path.components g.1)).isLE

end FileTree

end EstreeLint.Command
