import LintGate.Glob.Match
import LintGate.Path.Basic
import LintGate.Text.Utf8

/-!
Which files are looked at: C and C++ sources that no exclude pattern matches and, where there are
include patterns, one of those does.
-/

namespace LintGate

structure SourceFilter where
  /-- None where every source is included. -/
  includes : Option (List Glob)
  excludes : List Glob

namespace SourceFilter

/-- The patterns that can be read. -/
def globs (patterns : List String) : List Glob :=
  patterns.filterMap fun pattern => (Glob.parse? false pattern).map fun tokens => ⟨tokens, false⟩

/-- The filter of these patterns. Without include patterns everything is included; where all of them
are bad, nothing is. -/
def ofPatterns (includes excludes : List String) : SourceFilter where
  includes := if includes.isEmpty then none else some (globs includes)
  excludes := globs excludes

/-- Whether one of the patterns matches the path as it is written. -/
def matchesAny (globs : List Glob) (p : Path) : Bool :=
  globs.any (·.isMatch (Text.Utf8.encode p.text))

/-- Whether the file at a path is looked at. -/
def accepts (f : SourceFilter) (p : Path) : Bool :=
  p.isSource && !matchesAny f.excludes p &&
    match f.includes with
    | some globs => matchesAny globs p
    | none => true

end SourceFilter

end LintGate
