import LintGate.Path.Basic

/-!
Absolute and normal forms of paths, the identity of files by their normal forms, and the names of
components of a project. The directory against which relative paths are seen is always `cwd`.
-/

namespace LintGate.Path

/-- `base` followed by the components, one slash before each unless one is there. -/
def extend (base : List Char) (components : List Component) : List Char :=
  components.foldl (fun found c => (join ⟨found⟩ ⟨c.chars⟩).chars) base

/-- The components that an absolute form keeps: a leading dot goes away. -/
def steps (p : Path) : List Component :=
  p.components.filter fun c => c != .current

/-- The path seen from `cwd`, without touching `..`. A slash at the end stays, and so do exactly two
at the start. The empty path stays empty. -/
def absolute (cwd p : Path) : Path :=
  if p.isEmpty then p
  else
    let found :=
      if !p.isAbsolute then extend cwd.chars p.steps
      else if "//".toList.isPrefixOf p.chars && !"///".toList.isPrefixOf p.chars then
        extend "//".toList (p.steps.drop 1)
      else extend [] p.steps
    if p.chars.getLast? == some '/' && found.getLast? != some '/' then ⟨found ++ ['/']⟩ else ⟨found⟩

/-- The names that are left when `..` takes away the name before it, the last one first. -/
def walk (names : List (List Char)) : List Component → List (List Char)
  | [] => names
  | .name label :: rest => walk (label :: names) rest
  | .parent :: rest => walk names.tail rest
  | _ :: rest => walk names rest

/-- The names on the way from the root to the file. -/
def names (cwd p : Path) : List (List Char) :=
  (walk [] ((if p.isAbsolute then [] else cwd.components) ++ p.components)).reverse

/-- The components of the normal form: none for the empty path. -/
def normalComponents (cwd p : Path) : List Component :=
  if p.isEmpty then [] else .root :: (names cwd p).map .name

/-- The normal form: absolute, without dots, with one slash before each name. -/
def normalize (cwd p : Path) : Path :=
  if p.isEmpty then p else ⟨'/' :: ['/'].intercalate (names cwd p)⟩

/-- Whether two paths name the same file. -/
def sameFile (cwd a b : Path) : Bool :=
  normalComponents cwd a == normalComponents cwd b

/-- The key of a file below the root of a project, if it lies there. -/
def componentKey? (cwd : Path) (project : String) (root file : Path) : Option String :=
  let above := normalComponents cwd root
  let all := normalComponents cwd file
  if above.isPrefixOf all then
    match all.drop above.length with
    | [] => none
    | below => some (project ++ ":" ++ String.ofList (['/'].intercalate (below.map (·.chars))))
  else none

end LintGate.Path
