import LintGate.Text.Blank
import LintGate.Text.Cut
import LintGate.Text.Octets

/-!
File names as they are written, and the components they consist of. All operations here look at the
text alone, never at files.
-/

namespace LintGate

/-- A path as it is written. -/
structure Path where
  chars : List Char
  deriving DecidableEq, Repr, Inhabited

namespace Path

def ofString (s : String) : Path := ⟨s.toList⟩

def text (p : Path) : String := String.ofList p.chars

/-- The path that octets name. -/
def ofOctets (s : String) : Path := ofString (Text.Octets.toText s)

/-- The octets of the path. -/
def octets (p : Path) : String := Text.Octets.ofText p.text

def isEmpty (p : Path) : Bool := p.chars.isEmpty

/-- A path that starts at the root. -/
def isAbsolute (p : Path) : Bool := p.chars.head? == some '/'

/-- One step of a path. -/
inductive Component
  | root
  | current
  | parent
  | name (label : List Char)
  deriving DecidableEq, Repr

namespace Component

/-- The component as it is written. -/
def chars : Component → List Char
  | .root => ['/']
  | .current => ['.']
  | .parent => ['.', '.']
  | .name label => label

/-- The order of components: by kind, and names by their characters. -/
def compare : Component → Component → Ordering
  | .root, .root => .eq
  | .root, _ => .lt
  | .current, .root => .gt
  | .current, .current => .eq
  | .current, _ => .lt
  | .parent, .parent => .eq
  | .parent, .name _ => .lt
  | .parent, _ => .gt
  | .name a, .name b => Ord.compare a b
  | .name _, _ => .gt

end Component

/-- The pieces between the slashes. -/
def pieces (p : Path) : List (List Char) :=
  p.chars.splitOn '/'

/-- A piece that stands for a step anywhere in a path. -/
def innerComponent? : List Char → Option Component
  | [] => none
  | ['.'] => none
  | ['.', '.'] => some .parent
  | label => some (.name label)

/-- The components of the first piece of a path: an empty one before a slash is the root. -/
def firstComponents (first : List Char) (isLast : Bool) : List Component :=
  match first with
  | [] => if isLast then [] else [.root]
  | ['.'] => [.current]
  | label => (innerComponent? label).toList

/-- The components of a path. Repeated slashes and inner or trailing dots do not count. -/
def components (p : Path) : List Component :=
  match p.pieces with
  | [] => []
  | first :: rest => firstComponents first rest.isEmpty ++ rest.filterMap innerComponent?

/-- The order of paths, component by component. -/
def compare (a b : Path) : Ordering :=
  List.compareLex Component.compare a.components b.components

/-- The same components, however they are written. -/
def sameComponents (a b : Path) : Bool :=
  a.components == b.components

/-- `p` seen from the directory `base`: nothing of `base` is left when `p` is absolute. -/
def join (base p : Path) : Path :=
  if p.isAbsolute || base.isEmpty then p
  else if base.chars.getLast? == some '/' then ⟨base.chars ++ p.chars⟩
  else ⟨base.chars ++ '/' :: p.chars⟩

/-- The pieces without those at the end that do not count; the first piece always counts. -/
def trimPieces (pieces : List (List Char)) : List (List Char) :=
  match pieces with
  | [] => []
  | first :: rest =>
    first :: (rest.reverse.dropWhile fun piece => piece == [] || piece == ['.']).reverse

/-- The path without its last component: none for the root and the empty path. -/
def parent? (p : Path) : Option Path :=
  match trimPieces p.pieces with
  | [] => none
  | [[]] => none
  | [_] => some ⟨[]⟩
  | trimmed =>
    match trimPieces trimmed.dropLast with
    | [[]] => some ⟨['/']⟩
    | kept => some ⟨['/'].intercalate kept⟩

/-- The name of the file, if the path ends with a name. -/
def fileName? (p : Path) : Option (List Char) :=
  match p.components.getLast? with
  | some (.name label) => some label
  | _ => none

/-- What follows the last point of the file name, unless that point is its first character. -/
def extension? (p : Path) : Option (List Char) := do
  let label ← p.fileName?
  let reversed := label.reverse
  let before := (reversed.dropWhile (· != '.')).drop 1
  if before.isEmpty then none else some (reversed.takeWhile (· != '.')).reverse

/-- The extensions of C and C++ sources. -/
def sourceExtensions : List String :=
  ["cpp", "cc", "c", "h", "hpp"]

/-- Whether the extension, in letters of either case, is that of a C or C++ source. -/
def isSource (p : Path) : Bool :=
  match p.extension? with
  | some extension => sourceExtensions.any (·.toList == extension.map Char.toLower)
  | none => false

end Path

end LintGate
