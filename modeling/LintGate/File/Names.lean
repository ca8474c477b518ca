import LintGate.File.Tree

/-!
Names of entries. A file system gives an entry any name that is one step of a path, but for the two
names of dots, which lead elsewhere.
-/

namespace LintGate.FileTree

/-- Whether an entry can have this name. -/
def isEntryName (name : String) : Bool :=
  let label := name.toList
  !label.contains '/' && label != [] && label != ['.'] && label != ['.', '.']

mutual
/-- Whether every entry of the tree has a name that entries can have. -/
def isWellNamed : FileTree → Bool
  | .directory entries => areWellNamed entries
  | .file _ _ => true
  | .utility _ => true

/-- Whether these entries, and all below them, have names that entries can have. -/
def areWellNamed : List (String × FileTree) → Bool
  | [] => true
  | (name, t) :: rest => isEntryName name && isWellNamed t && areWellNamed rest
end

mutual
/-- The most bytes that a path takes from here to anything below, with a slash before each name. -/
def extent : FileTree → Nat
  | .directory entries => extentOf entries
  | .file _ _ => 0
  | .utility _ => 0

/-- The most bytes that a path takes to these entries and to anything below them. -/
def extentOf : List (String × FileTree) → Nat
  | [] => 0
  | (name, t) :: rest => max (1 + byteLength name.toList + extent t) (extentOf rest)
end

end LintGate.FileTree
