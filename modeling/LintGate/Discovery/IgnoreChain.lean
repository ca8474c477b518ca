import LintGate.Discovery.IgnoreRule
import LintGate.File.Tree
import LintGate.Path.Absolute

/-!
Which ignore files count for a name: those of its directory and of every directory above. Nearer
directories come before farther ones, and `.ignore` comes before `.gitignore`, that before the
excludes of a repository, and those before what the user keeps out of all repositories. Only
`.ignore` counts outside a repository.
-/

namespace LintGate

/-- The ignore files of one directory. -/
structure IgnoreLevel where
  plain : IgnoreFile
  versioned : IgnoreFile
  excluded : IgnoreFile
  /-- Whether a repository begins here. -/
  isRepository : Bool

namespace IgnoreLevel

/-- The directory that holds the administration of a repository: `.git`, or the one to which a file
of that name points. -/
def administration? (root : FileTree) (cwd dir : Path) : Option Path :=
  let link := dir.join (Path.ofString ".git")
  match FileTree.find root cwd link with
  | .error _ => some link
  | .ok t =>
    if t.isDirectory then some link
    else do
      let bytes ← (FileTree.readBytes root cwd link).toOption
      let line ← (Text.textLines bytes).head?
      let mark := "gitdir: ".toList
      if mark.isPrefixOf line.toList then
        let own : Path := ⟨line.toList.drop mark.length⟩
        let bytes ← (FileTree.readBytes root cwd (own.join (Path.ofString "commondir"))).toOption
        let line ← (Text.textLines bytes).head?
        let shared := Path.ofString line
        return if line.startsWith "." then own.join shared else shared
      else none

/-- The rules of the file at `file` for the directory `dir`; none where it cannot be read. -/
def rulesAt (root : FileTree) (cwd dir file : Path) : IgnoreFile :=
  .ofBytes dir ((FileTree.readBytes root cwd file).toOption.getD [])

/-- The ignore files of the directory `dir`. Where `repositories` do not count, only `.ignore`
does. -/
def ofDirectory (root : FileTree) (cwd : Path) (repositories : Bool) (dir : Path) : IgnoreLevel :=
  let inDir (name : String) : Path := dir.join (Path.ofString name)
  let isThere (name : String) : Bool := (FileTree.find root cwd (inDir name)).isOk
  let none : IgnoreFile := .ofBytes dir []
  { plain := rulesAt root cwd dir (inDir ".ignore")
    versioned := if repositories then rulesAt root cwd dir (inDir ".gitignore") else none
    excluded :=
      match administration? root cwd dir with
      | some admin =>
        if repositories then rulesAt root cwd dir (admin.join (Path.ofString "info/exclude"))
        else none
      | Option.none => none
    isRepository := repositories && (isThere ".git" || isThere ".jj") }

end IgnoreLevel

/-- The levels above and around a walk. -/
structure IgnoreChain where
  /-- The directory where the walk began, as it is written. -/
  start : Path
  /-- The levels from the innermost directory out to the start. -/
  inner : List IgnoreLevel
  /-- The levels of the directories above the start, the nearest first. -/
  above : List IgnoreLevel
  /-- The start as seen from the root, where there are directories above it. -/
  anchor : Option Path
  /-- What the user keeps out of all repositories. -/
  everywhere : IgnoreFile

namespace IgnoreChain

/-- A path as the levels above the start see it. -/
def anchored (c : IgnoreChain) (anchor p : Path) : Path :=
  if c.start.components == [.current] then anchor.join p
  else
    let start := withoutStart "./".toList c.start.chars
    anchor.join ⟨withoutStart ['/'] (withoutStart start p.chars)⟩

/-- The levels, each with the path as it sees it. -/
def views (c : IgnoreChain) (p : Path) : List (IgnoreLevel × Path) :=
  let p : Path := ⟨withoutStart "./".toList p.chars⟩
  c.inner.map (fun level => (level, p)) ++
    match c.anchor with
    | some anchor => c.above.map fun level => (level, c.anchored anchor p)
    | none => []

/-- The levels up to the first at which a repository begins; none where there is no such level. -/
def upToRepository : List (IgnoreLevel × Path) → List (IgnoreLevel × Path)
  | [] => []
  | view :: rest =>
    if view.1.isRepository then [view]
    else
      match upToRepository rest with
      | [] => []
      | found => view :: found

/-- What the ignore files say of a path. -/
def verdict? (c : IgnoreChain) (p : Path) (isDirectory : Bool) : Option Verdict :=
  let views := c.views p
  let versioned := upToRepository views
  (views.findSome? fun (level, p) => level.plain.verdict? p isDirectory) <|>
    (versioned.findSome? fun (level, p) => level.versioned.verdict? p isDirectory) <|>
    (versioned.findSome? fun (level, p) => level.excluded.verdict? p isDirectory) <|>
    (if versioned.isEmpty then none
      else c.everywhere.verdict? ⟨withoutStart "./".toList p.chars⟩ isDirectory)

/-- The chain inside one more directory. -/
def enter (c : IgnoreChain) (level : IgnoreLevel) : IgnoreChain :=
  { c with inner := level :: c.inner }

/-- The directories above the one these names lead to from the root, the nearest first. -/
def directoriesAbove (names : List (List Char)) : List Path :=
  (List.range names.length).reverse.map fun count => ⟨'/' :: ['/'].intercalate (names.take count)⟩

/-- The chain at the directory where a walk begins. Where `repositories` do not count, what the user
keeps out of them does not either. -/
def begin (root : FileTree) (cwd : Path) (repositories : Bool) (everywhere : IgnoreFile)
    (start : Path) : IgnoreChain where
  start := start
  inner := [.ofDirectory root cwd repositories start]
  above := (directoriesAbove (Path.names cwd start)).map (.ofDirectory root cwd repositories)
  anchor := if (Path.names cwd start).isEmpty then none else some (Path.normalize cwd start)
  everywhere := if repositories then everywhere else .silent

end IgnoreChain

end LintGate
