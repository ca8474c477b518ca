import LintGate.File.Fault
import LintGate.Path.Basic
import LintGate.Text.Dictionary
import LintGate.Text.Utf8

/-!
A tree of files as the file system shows it where there are no symbolic links. A path is followed
from the root or from the current directory; `..` is the directory above the one that was reached,
and only a directory can be passed.
-/

namespace LintGate

inductive FileTree
  | file (content : List UInt8) (executable : Bool)
  /-- A program of the system. -/
  | utility (name : String)
  | directory (entries : List (String × FileTree))
  deriving Inhabited

namespace FileTree

/-- A directory without entries. -/
def empty : FileTree := .directory []

/-- A file with this text that cannot be run. -/
def ofText (text : String) : FileTree :=
  .file (Text.Utf8.encode text) false

def isDirectory : FileTree → Bool
  | .directory _ => true
  | _ => false

/-- A file, as opposed to a directory. -/
def isFile (t : FileTree) : Bool := !t.isDirectory

/-- The entries of a directory, in ascending order of their names. -/
def entries : FileTree → Dictionary FileTree
  | .directory entries => entries
  | _ => []

/-- The tree with `new` at the place the names lead to; directories on the way are made. -/
def put : FileTree → List String → FileTree → FileTree
  | _, [], new => new
  | t, name :: rest, new =>
    let below := (Dictionary.get? name t.entries).getD empty
    .directory (Dictionary.insert name (below.put rest new) t.entries)

/-- The tree without what the names lead to. -/
def erase : FileTree → List String → FileTree
  | t, [] => t
  | t, [name] => .directory (t.entries.filter (·.1 != name))
  | t, name :: rest =>
    match Dictionary.get? name t.entries with
    | some below => .directory (Dictionary.insert name (below.erase rest) t.entries)
    | none => t

/-- The names of a path that is a plain list of names. -/
def namesOf (p : Path) : List String :=
  p.components.filterMap fun
    | .name label => some (String.ofList label)
    | _ => none

/-- How many bytes a text has. -/
def byteLength (cs : List Char) : Nat :=
  cs.foldl (fun n c => n + c.utf8Size) 0

/-- The longest name of an entry, in bytes. -/
def maxNameLength : Nat := 255

/-- The longest path, in bytes. -/
def maxPathLength : Nat := 4095

/-- A place in a tree: the names on the way from the root to it and what each leads to, the last one
first. -/
structure Place where
  root : FileTree
  trail : List (String × FileTree)

namespace Place

/-- What lies at the place. -/
def tree (p : Place) : FileTree :=
  match p.trail with
  | [] => p.root
  | (_, t) :: _ => t

/-- The names on the way from the root. -/
def names (p : Place) : List String :=
  (p.trail.map (·.1)).reverse

/-- What is reached by following the pieces of a path from a place. -/
def follow (p : Place) : List (List Char) → Except FileFault Place
  | [] => .ok p
  | piece :: rest =>
    match p.tree with
    | .directory entries =>
      if piece = [] ∨ piece = ['.'] then follow p rest
      else if piece = ['.', '.'] then follow { p with trail := p.trail.tail } rest
      else if maxNameLength < byteLength piece then .error .nameTooLong
      else
        let name := String.ofList piece
        match Dictionary.get? name entries with
        | some found => follow { p with trail := (name, found) :: p.trail } rest
        | none => .error .missing
    | _ => .error .notDirectory

end Place

/-- The place from which a path is followed: the root, or the directory `cwd`. -/
def base (root : FileTree) (cwd p : Path) : Except FileFault Place := do
  if p.chars.contains '\x00' then throw .nullInName
  if p.isEmpty then throw .missing
  if maxPathLength < byteLength p.chars then throw .nameTooLong
  if p.isAbsolute then return ⟨root, []⟩ else Place.follow ⟨root, []⟩ cwd.pieces

/-- The place a path leads to, seen from the directory `cwd`. -/
def place (root : FileTree) (cwd p : Path) : Except FileFault Place := do
  (← base root cwd p).follow p.pieces

/-- What a path leads to, seen from the directory `cwd`. -/
def find (root : FileTree) (cwd p : Path) : Except FileFault FileTree :=
  (place root cwd p).map (·.tree)

/-- The directory in which the last name of a path is, or would be, an entry, and that name. -/
def entryPlace (root : FileTree) (cwd p : Path) : Except FileFault (Place × String) := do
  let start ← base root cwd p
  let pieces := (p.pieces.reverse.dropWhile (·.isEmpty)).reverse
  match pieces.getLast? with
  | none => throw .alreadyExists
  | some last =>
    let dir ← start.follow pieces.dropLast
    if !dir.tree.isDirectory then throw .notDirectory
    if last = ['.'] ∨ last = ['.', '.'] then throw .alreadyExists
    if maxNameLength < byteLength last then throw .nameTooLong
    return (dir, String.ofList last)

/-- Whether the path leads to a file. -/
def hasFile (root : FileTree) (cwd p : Path) : Bool :=
  match find root cwd p with
  | .ok t => t.isFile
  | .error _ => false

/-- The bytes of the file at a path. -/
def readBytes (root : FileTree) (cwd p : Path) : Except FileFault (List UInt8) := do
  match ← find root cwd p with
  | .file content _ => return content
  | .utility _ => throw .denied
  | .directory _ => throw .isDirectory

/-- The text of the file at a path. -/
def readText (root : FileTree) (cwd p : Path) : Except FileFault String := do
  match Text.Utf8.decode? (← readBytes root cwd p) with
  | some text => return text
  | none => throw .notText

end FileTree

end LintGate
