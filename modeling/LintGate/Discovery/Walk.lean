import LintGate.Discovery.IgnoreChain
import LintGate.Discovery.SourceFilter

/-!
Discovery of sources: files that are named and files below directories that are named, in the order
of their paths. Ignore files and hidden names count only below the directories.
-/

namespace LintGate

structure WalkOptions where
  /-- Whether the ignore files of repositories count. -/
  respectsRepositories : Bool := true
  /-- The ignore file of the user, who may have set one up for all repositories. -/
  userExcludes : IgnoreFile := .silent
  /-- Whether names that start with a point are looked at. -/
  hidden : Bool := false
  includes : List String := []
  excludes : List String := []

namespace WalkOptions

def filter (o : WalkOptions) : SourceFilter :=
  .ofPatterns o.includes o.excludes

/-- Whether an entry is passed over: by the word of an ignore file, or, without any, because its
name is hidden. -/
def skips (o : WalkOptions) (verdict : Option Verdict) (name : String) : Bool :=
  match verdict with
  | some .ignore => true
  | some .keep => false
  | none => name.startsWith "." && !o.hidden

end WalkOptions

namespace Discovery

section
variable (root : FileTree) (cwd : Path) (options : WalkOptions)

mutual
/-- The files in what lies at `path`, a directory's entries being seen from inside the chain. -/
def filesAt (chain : IgnoreChain) (path : Path) : FileTree → List Path
  | .directory entries =>
    filesIn (chain.enter (.ofDirectory root cwd options.respectsRepositories path)) path entries
  | .file _ _ => [path]
  | .utility _ => [path]

/-- The files in the entries of the directory `dir`. -/
def filesIn (chain : IgnoreChain) (dir : Path) : List (String × FileTree) → List Path
  | [] => []
  | (name, t) :: rest =>
    let path := dir.join (Path.ofString name)
    if options.skips (chain.verdict? path t.isDirectory) name then filesIn chain dir rest
    else filesAt chain path t ++ filesIn chain dir rest
end

/-- The files below a directory that is named. Standard input is no directory. -/
def filesBelow (start : Path) : List Path :=
  if start.sameComponents (Path.ofString "-") then []
  else
    match FileTree.find root cwd start with
    | .ok t =>
      let chain := .begin root cwd options.respectsRepositories options.userExcludes start
      filesIn root cwd options chain start t.entries
    | .error _ => []

/-- The sources found: those among the named files, and those below the other paths. -/
def found (paths : List Path) : List Path :=
  let (files, others) := paths.partition (FileTree.hasFile root cwd)
  (files ++ others.flatMap (filesBelow root cwd options)).filter options.filter.accepts

end

/-- The paths in ascending order, each once. Of paths that differ only in how they are written the
first stays. -/
def distinct (paths : List Path) : List Path :=
  (paths.mergeSort fun a b => (Path.compare a b).isLE).eraseRepsBy Path.sameComponents

/-- The sources in and below the paths, in ascending order, each once. -/
def walk (root : FileTree) (cwd : Path) (options : WalkOptions) (paths : List Path) : List Path :=
  distinct (found root cwd options paths)

end Discovery

end LintGate
